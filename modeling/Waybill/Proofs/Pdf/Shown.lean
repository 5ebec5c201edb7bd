/-
  What a document shows, and how it is copied.

  * `Document.shown` is what stands at a reference: a page with its attributes but without the node
    above it, or an object;
  * `Document.packed` is the same with streams compressed, `meaning` with streams as they are meant;
  * `Leads`: references lead from one to another;
  * `unfolded` is what a reference shows with references followed;
  * `Copied`: under new references, all stands that a reference leads to;
  * `Document.Clean`: a page leads to nothing that is dropped.

  Statements: `Copied.unfolded` (a copy shows the same), `Copied.leads` (a copy leads to nothing
  else), `led_of_packed` (the trailer leads to what is shown).
-/
import Waybill.Proofs.Pdf.Compression
import Waybill.Proofs.Pdf.PageTree

namespace Waybill.Pdf

/-! ## References followed -/

mutual

/-- The object with objects in the place of its references. -/
def Object.filled (f : Ref → Object) : Object → Object
  | .ref target => f target
  | .array items => .array (filledItems f items)
  | .dict entries => .dict (filledEntries f entries)
  | .stream entries content => .stream (filledEntries f entries) content
  | o => o

/-- Items with objects in the place of their references. -/
def filledItems (f : Ref → Object) : List Object → List Object
  | [] => []
  | o :: items => o.filled f :: filledItems f items

/-- Entries with objects in the place of their references. -/
def filledEntries (f : Ref → Object) : List (String × Object) → List (String × Object)
  | [] => []
  | (name, o) :: entries => (name, o.filled f) :: filledEntries f entries

end

mutual

theorem filled_rename (σ : Ref → Ref) (f : Ref → Object) (o : Object) :
    (o.rename σ).filled f = o.filled (f ∘ σ) := by
  cases o with
  | ref target => rfl
  | array items => simpa [Object.rename, Object.filled] using filledItems_rename σ f items
  | dict entries => simpa [Object.rename, Object.filled] using filledEntries_rename σ f entries
  | stream entries content =>
    simpa [Object.rename, Object.filled] using filledEntries_rename σ f entries
  | _ => rfl

theorem filledItems_rename (σ : Ref → Ref) (f : Ref → Object) (items : List Object) :
    filledItems f (renameItems σ items) = filledItems (f ∘ σ) items := by
  cases items with
  | nil => rfl
  | cons o items =>
    simp [renameItems, filledItems, filled_rename σ f o, filledItems_rename σ f items]

theorem filledEntries_rename (σ : Ref → Ref) (f : Ref → Object) (d : Dict) :
    filledEntries f (renameEntries σ d) = filledEntries (f ∘ σ) d := by
  cases d with
  | nil => rfl
  | cons e d =>
    simp [renameEntries, filledEntries, filled_rename σ f e.2, filledEntries_rename σ f d]

end

mutual

theorem filled_congr {f g : Ref → Object} (o : Object) (h : ∀ r ∈ o.refs, f r = g r) :
    o.filled f = o.filled g := by
  cases o with
  | ref target => exact h target (mem_refs_ref _)
  | array items => exact congrArg Object.array (filledItems_congr items h)
  | dict entries => exact congrArg Object.dict (filledEntries_congr entries h)
  | stream entries content =>
    exact congrArg (Object.stream · content) (filledEntries_congr entries h)
  | _ => rfl

theorem filledItems_congr {f g : Ref → Object} (items : List Object)
    (h : ∀ r ∈ refsOfItems items, f r = g r) : filledItems f items = filledItems g items := by
  cases items with
  | nil => rfl
  | cons o items =>
    rw [refsOfItems, List.forall_mem_append] at h
    rw [filledItems, filledItems, filled_congr o h.1, filledItems_congr items h.2]

theorem filledEntries_congr {f g : Ref → Object} (d : Dict)
    (h : ∀ r ∈ refsOfEntries d, f r = g r) : filledEntries f d = filledEntries g d := by
  cases d with
  | nil => rfl
  | cons e d =>
    rw [refsOfEntries, List.forall_mem_append] at h
    rw [filledEntries, filledEntries, filled_congr e.2 h.1, filledEntries_congr d h.2]

end

/-- What a reference shows, with references followed so deep. -/
def unfolded (look : Ref → Option Object) : Nat → Ref → Object
  | 0, _ => .null
  | n + 1, r => ((look r).map (Object.filled (unfolded look n))).getD .null

/-- References lead from one to another. -/
inductive Leads (look : Ref → Option Object) (r : Ref) : Ref → Prop
  | refl : Leads look r r
  | step {s t : Ref} {o : Object} (h : Leads look r s) (ho : look s = some o) (ht : t ∈ o.refs) :
    Leads look r t

/-- What stands at a reference, as it is meant. -/
def meaning (look : Ref → Option Object) (r : Ref) : Option Object :=
  (look r).map Object.meant

/-! ## Copies -/

/-- Under new references, all stands that a reference leads to. -/
def Copied (look look' : Ref → Option Object) (σ : Ref → Ref) (r : Ref) : Prop :=
  ∀ s, Leads look r s → look' (σ s) = (look s).map (·.rename σ)

namespace Copied

variable {look look' : Ref → Option Object} {σ : Ref → Ref} {r : Ref}
  (h : Copied look look' σ r)
include h

/-- A copy leads to nothing but copies. -/
theorem leads {t' : Ref} (ht : Leads look' (σ r) t') : ∃ t, Leads look r t ∧ t' = σ t := by
  induction ht with
  | refl => exact ⟨r, .refl, rfl⟩
  | step _ ho ht ih =>
    obtain ⟨s, hs, rfl⟩ := ih
    rw [h s hs, Option.map_eq_some_iff] at ho
    obtain ⟨p, hp, rfl⟩ := ho
    rw [refs_rename, List.mem_map] at ht
    obtain ⟨t, ht, rfl⟩ := ht
    exact ⟨t, hs.step hp ht, rfl⟩

/-- A copy shows the same. -/
theorem unfolded (n : Nat) : unfolded look' n (σ r) = unfolded look n r := by
  have hall : ∀ n s, Leads look r s → Pdf.unfolded look' n (σ s) = Pdf.unfolded look n s := by
    intro n
    induction n with
    | zero => exact fun _ _ => rfl
    | succ n ih =>
      intro s hs
      rw [Pdf.unfolded, Pdf.unfolded, h s hs]
      cases ho : look s with
      | none => rfl
      | some o =>
        rw [Option.map_some, Option.map_some, Option.map_some, filled_rename]
        exact congrArg (Option.getD · Object.null) (congrArg some
          (filled_congr o fun t ht => ih t (hs.step ho ht)))
  exact hall n r .refl

end Copied

/-! ## Documents -/

namespace Document

/-- What stands at a reference: a page with its attributes but without the node above it, or else
    the object. -/
def shown (d : Document) (pages : List Ref) (r : Ref) : Option Object :=
  if r ∈ pages then (d.page? r).map fun page => .dict (page.erase "Parent") else d.find? r

/-- What stands at a reference, a stream in fewer bytes. -/
def packed (zlib : Compressor) (d : Document) (r : Ref) : Option Object :=
  (d.shown d.pages r).map (·.compressed zlib)

/-- What the pages show, with references followed so deep. -/
def views (n : Nat) (d : Document) : List Object :=
  d.pages.map (unfolded (d.shown d.pages) n)

/-- No stream that a reference leads to has parameters of a filter that it does not have. -/
def Packable (d : Document) (r : Ref) : Prop :=
  ∀ s o, Leads (d.shown d.pages) r s → d.shown d.pages s = some o → o.Compressible

/-- Streams in fewer bytes lead nowhere new. -/
theorem leads_of_packed {zlib : Compressor} {d : Document} {r s : Ref}
    (h : Leads (d.packed zlib) r s) : Leads (d.shown d.pages) r s := by
  induction h with
  | refl => exact .refl
  | step _ ho ht ih =>
    obtain ⟨p, hp, rfl⟩ := Option.map_eq_some_iff.1 ho
    exact ih.step hp (mem_refs_of_compressed ht)

/-- What streams as they are meant lead to, they lead to in fewer bytes. -/
theorem leads_packed_of_meaning {zlib : Compressor} {d : Document} {r s : Ref} (hz : Lossless zlib)
    (hr : d.Packable r) (h : Leads (meaning (d.shown d.pages)) r s) :
    Leads (d.packed zlib) r s := by
  induction h with
  | refl => exact .refl
  | step _ ho ht ih =>
    obtain ⟨p, hp, rfl⟩ := Option.map_eq_some_iff.1 ho
    have hcompressible := hr _ p (leads_of_packed ih) hp
    rw [← meant_compressed hz hcompressible] at ht
    exact ih.step (by rw [packed, hp]; rfl) (mem_refs_of_meant ht)

/-- A page, or an object of a type that is kept. -/
def Keeps (d : Document) (r : Ref) : Prop :=
  r ∈ d.pages ∨ ∃ o, d.find? r = some o ∧ ∀ type ∈ o.typeName?, type ∉ Pool.dropped

/-- A page or an object of a type that is kept; and no reference is captured at which the attributes
    of the page are looked for. -/
structure Stays (d : Document) (n : Nat) (r : Ref) : Prop where
  keeps : d.Keeps r
  secure : r ∈ d.pages → d.Secure n inheritable r

/-- Whatever a reference leads to, short of the nodes above pages, stays. -/
def Clean (d : Document) (n : Nat) (r : Ref) : Prop :=
  ∀ s, Leads (d.shown d.pages) r s → d.Stays n s

/-- What stands somewhere with streams in fewer bytes means what it meant. -/
theorem meaning_packed {zlib : Compressor} {d : Document} {look : Ref → Option Object}
    {σ : Ref → Ref} {r s : Ref} (hz : Lossless zlib) (hr : d.Packable r)
    (hs : Leads (d.shown d.pages) r s) (h : look (σ s) = (d.packed zlib s).map (·.rename σ)) :
    meaning look (σ s) = (meaning (d.shown d.pages) s).map (·.rename σ) := by
  rw [meaning, h, packed, meaning]
  cases ho : d.shown d.pages s with
  | none => rfl
  | some o =>
    simp only [Option.map_some]
    rw [← rename_meant, meant_compressed hz (hr s o hs ho)]

/-- Where a page or an object of a type that is kept should be, there is an object. -/
theorem Keeps.isSome {d : Document} {r : Ref} (h : d.Keeps r) : (d.find? r).isSome := by
  rcases h with hpage | ⟨o, ho, -⟩
  · exact isSome_of_mem_pages hpage
  · simp [ho]

/-- What the trailer leads to shows nothing that it does not lead to. -/
theorem led_of_packed {zlib : Compressor} {d : Document} {r s : Ref} {o : Object} (hled : d.Led r)
    (ho : d.packed zlib r = some o) (hs : s ∈ o.refs) (hs' : (d.find? s).isSome) : d.Led s := by
  obtain ⟨p, hp, rfl⟩ := Option.map_eq_some_iff.1 ho
  have hs := mem_refs_of_compressed hs
  unfold shown at hp
  split at hp
  · next hr =>
    obtain ⟨page, hpage⟩ := exists_page_of_mem_pages hr
    rw [hpage] at hp
    cases hp
    exact led_of_mem_page? hled hpage (mem_refsOfEntries_of_erase _ hs) hs'
  · exact hled.next hp hs hs'

/-- In a document in which every reference is to an object, what is kept stays. -/
theorem Closed.stays {d : Document} (h : d.Closed) {r : Ref} (hr : d.Keeps r) (n : Nat) :
    d.Stays n r :=
  ⟨hr, fun _ => h.secure n inheritable r⟩

theorem clean_of_subset {d : Document} {n : Nat} {r : Ref} (more : List Ref) (hr : r ∈ more)
    (hstays : ∀ s ∈ more, d.Stays n s)
    (hmore : ∀ s ∈ more, ∀ o, d.shown d.pages s = some o → ∀ t ∈ o.refs, t ∈ more) :
    d.Clean n r := by
  intro s hs
  refine hstays s ?_
  induction hs with
  | refl => exact hr
  | step _ ho ht ih => exact hmore _ ih _ ho _ ht

end Document

end Waybill.Pdf

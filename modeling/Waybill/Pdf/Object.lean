/-
  The objects of a PDF file.

  Names and strings are texts with one character a byte.  A dictionary keeps its entries in the
  order in which they were first set.

  * `Object` is a value, `Ref` the number and generation by which one refers to another;
  * `Dict.get?`, `Dict.set`, `Dict.erase` are the entries by name;
  * `Object.rename` replaces references, `Object.refs` lists them;
  * `Object.typeName?` is the name under `Type`.

  Statements: `Dict.get?_set` and `Dict.get?_erase` (what becomes of each entry), `refs_rename`
  and `get?_renameEntries` (renaming reaches every reference and nothing else).
-/

namespace Waybill.Pdf

/-! ## Objects -/

/-- The number and the generation of an object. -/
structure Ref where
  number : Nat
  generation : Nat
  deriving DecidableEq, Repr, Inhabited

/-- References by number, then by generation. -/
def Ref.before (a b : Ref) : Bool :=
  a.number < b.number || a.number == b.number && a.generation < b.generation

/-- A value in a PDF file. -/
inductive Object where
  | null
  | bool (b : Bool)
  | int (n : Int)
  /-- A real number in single precision, by its bits. -/
  | real (bits : UInt32)
  | name (text : String)
  /-- A string, and whether it is written in hexadecimal digits. -/
  | string (text : String) (hexadecimal : Bool)
  | array (items : List Object)
  | dict (entries : List (String × Object))
  | stream (entries : List (String × Object)) (content : List UInt8)
  | ref (target : Ref)
  deriving Inhabited

/-- The entries of a dictionary. -/
abbrev Dict : Type := List (String × Object)

/-! ## Dictionaries -/

namespace Dict

/-- The value of an entry. -/
def get? (name : String) : Dict → Option Object
  | [] => none
  | (n, v) :: d => if n = name then some v else get? name d

/-- Whether there is an entry. -/
def has (name : String) (d : Dict) : Bool :=
  (d.get? name).isSome

/-- The dictionary with an entry set: in its place, or at the end. -/
def set (name : String) (value : Object) : Dict → Dict
  | [] => [(name, value)]
  | (n, v) :: d => if n = name then (name, value) :: d else (n, v) :: set name value d

/-- The dictionary without an entry. -/
def erase (name : String) (d : Dict) : Dict :=
  d.filter fun entry => entry.1 ≠ name

theorem get?_erase (name other : String) (d : Dict) :
    (d.erase name).get? other = if name = other then none else d.get? other := by
  induction d with
  | nil => simp [erase, get?]
  | cons entry d ih =>
    obtain ⟨n, v⟩ := entry
    by_cases h : n = name
    · have he : erase name ((n, v) :: d) = erase name d := by simp [erase, h]
      rw [he, ih]; subst h; by_cases ho : n = other <;> simp [get?, ho]
    · have he : erase name ((n, v) :: d) = (n, v) :: erase name d := by simp [erase, h]
      rw [he]
      by_cases ho : n = other
      · subst ho; simp [get?, Ne.symm h]
      · simp [get?, ho, ih]

theorem get?_set (name other : String) (value : Object) (d : Dict) :
    (d.set name value).get? other = if name = other then some value else d.get? other := by
  induction d with
  | nil => rfl
  | cons entry d ih =>
    obtain ⟨n, v⟩ := entry
    by_cases h : n = name
    · subst h; simp only [set, ↓reduceIte, get?]; split <;> rfl
    · by_cases ho : n = other
      · subst ho; simp [set, h, get?, Ne.symm h]
      · simp [set, h, get?, ho, ih]

/-- An entry that is there may be set again. -/
theorem set_get? {name : String} {d : Dict} {v : Object} (h : d.get? name = some v) :
    d.set name v = d := by
  induction d with
  | nil => cases h
  | cons e d ih =>
    obtain ⟨n, o⟩ := e
    rw [Dict.get?] at h
    rw [Dict.set]
    split at h
    · next hn =>
      obtain rfl := Option.some.inj h
      rw [if_pos hn, hn]
    · next hn => rw [if_neg hn, ih h]

end Dict

/-! ## Parts of objects -/

namespace Object

/-- The entries of a dictionary; a stream is none. -/
def dict? : Object → Option Dict
  | .dict entries => some entries
  | _ => none

/-- The entries of a dictionary or of a stream. -/
def entries? : Object → Option Dict
  | .dict entries | .stream entries _ => some entries
  | _ => none

/-- The items of an array. -/
def array? : Object → Option (List Object)
  | .array items => some items
  | _ => none

/-- The text of a name. -/
def name? : Object → Option String
  | .name text => some text
  | _ => none

/-- The value of an integer. -/
def int? : Object → Option Int
  | .int n => some n
  | _ => none

/-- The target of a reference. -/
def ref? : Object → Option Ref
  | .ref target => some target
  | _ => none

end Object

/-- The name under `Type` in a dictionary. -/
def Dict.typeName? (d : Dict) : Option String :=
  (d.get? "Type").bind Object.name?

/-- The name under `Type` of a dictionary that is not a stream's. -/
def Object.typeName? (o : Object) : Option String :=
  o.dict?.bind Dict.typeName?

/-! ## References -/

mutual

/-- The object with its references replaced. -/
def Object.rename (f : Ref → Ref) : Object → Object
  | .ref target => .ref (f target)
  | .array items => .array (renameItems f items)
  | .dict entries => .dict (renameEntries f entries)
  | .stream entries content => .stream (renameEntries f entries) content
  | o => o

/-- Items with their references replaced. -/
def renameItems (f : Ref → Ref) : List Object → List Object
  | [] => []
  | o :: items => o.rename f :: renameItems f items

/-- Entries with their references replaced. -/
def renameEntries (f : Ref → Ref) : List (String × Object) → List (String × Object)
  | [] => []
  | (name, o) :: entries => (name, o.rename f) :: renameEntries f entries

end

mutual

/-- The references in an object, in order. -/
def Object.refs : Object → List Ref
  | .ref target => [target]
  | .array items => refsOfItems items
  | .dict entries => refsOfEntries entries
  | .stream entries _ => refsOfEntries entries
  | _ => []

/-- The references in items. -/
def refsOfItems : List Object → List Ref
  | [] => []
  | o :: items => o.refs ++ refsOfItems items

/-- The references in entries. -/
def refsOfEntries : List (String × Object) → List Ref
  | [] => []
  | (_, o) :: entries => o.refs ++ refsOfEntries entries

end

mutual

theorem refs_rename (f : Ref → Ref) (o : Object) : (o.rename f).refs = o.refs.map f := by
  cases o with
  | ref target => simp [Object.rename, Object.refs]
  | array items => simpa [Object.rename, Object.refs] using refsOfItems_rename f items
  | dict entries => simpa [Object.rename, Object.refs] using refsOfEntries_rename f entries
  | stream entries content =>
    simpa [Object.rename, Object.refs] using refsOfEntries_rename f entries
  | _ => simp [Object.rename, Object.refs]

theorem refsOfItems_rename (f : Ref → Ref) (items : List Object) :
    refsOfItems (renameItems f items) = (refsOfItems items).map f := by
  cases items with
  | nil => rfl
  | cons o items =>
    simp [renameItems, refsOfItems, refs_rename f o, refsOfItems_rename f items]

theorem refsOfEntries_rename (f : Ref → Ref) (entries : List (String × Object)) :
    refsOfEntries (renameEntries f entries) = (refsOfEntries entries).map f := by
  cases entries with
  | nil => rfl
  | cons entry entries =>
    obtain ⟨name, o⟩ := entry
    simp [renameEntries, refsOfEntries, refs_rename f o, refsOfEntries_rename f entries]

end

theorem get?_renameEntries (f : Ref → Ref) (name : String) (d : Dict) :
    Dict.get? name (renameEntries f d) = (d.get? name).map (Object.rename f) := by
  induction d with
  | nil => rfl
  | cons entry d ih =>
    obtain ⟨n, o⟩ := entry
    by_cases h : n = name <;> simp [renameEntries, Dict.get?, h, ih]

end Waybill.Pdf

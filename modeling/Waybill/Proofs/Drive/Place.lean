/-
  Where the content of a file of the drive is.

  The names on a path are added one after the other to the endpoint, below the root of the drive.
  Each is one segment, whatever is in it, so the address tells the names and nothing on a path leads
  out of the drive.  The one exception is a folder that hides two dots.

  * `Config.pieces`: the segments that are added to the endpoint for a file;
  * `Config.place`: as they stand in the address, dot folders left out;
  * `Config.Locates`: what the address of a file is;
  * `Config.Addresses`: how the files of the drive are addressed.

  Statements: `place_eq` (a place is its pieces, written), `not_dots_of_mem_place` (no segment of a
  place leads above it), `decode_place` and `place_inj` (a place of plain names tells them),
  `exists_address` (what has an address), `remoteNames_eq_of_text_eq` (the text of an address tells
  the names), and `content_is_below_root`, which is all of this.
-/
import Waybill.Proofs.Drive.Conversation
import Waybill.Proofs.Url.Push

namespace Waybill.Drive

open Url (IsDots Hides Plain written trunk)

variable {c : Config} {folders folders' : List String} {last last' : String}

/-! ## Places -/

/-- The segments that are added to the endpoint for a file in folders. -/
def Config.pieces (c : Config) (folders : List String) (last : String) : List String :=
  "drives" :: Text.trim c.drive :: "root:" :: folders ++ [last ++ ":", "content"]

/-- The segments of the content of a file below those of the endpoint. -/
def Config.place (c : Config) (folders : List String) (last : String) : List String :=
  "drives" :: written "https" (Text.trim c.drive) :: "root:" ::
    (folders.filter fun f => ¬IsDots f).map (written "https") ++
      [written "https" last ++ ":", "content"]

theorem colon_mem (last : String) : ':' ∈ (last ++ ":").toList := by
  rw [String.toList_append]
  exact List.mem_append_right _ (List.mem_singleton_self _)

theorem plain_drives : Plain "drives" := ⟨by decide, by simp [Url.isDropped]⟩

theorem plain_root : Plain "root:" := ⟨by decide, by simp [Url.isDropped]⟩

theorem plain_content : Plain "content" := ⟨by decide, by simp [Url.isDropped]⟩

theorem written_drives : written "https" "drives" = "drives" := by cbv

theorem written_root : written "https" "root:" = "root:" := by cbv

theorem written_content : written "https" "content" = "content" := by cbv

theorem cases_of_mem_pieces (hdrive : Plain (Text.trim c.drive)) {s : String}
    (h : s ∈ c.pieces folders last) : Plain s ∨ s ∈ folders ∨ s = last ++ ":" := by
  simp only [Config.pieces, List.mem_cons, List.mem_append, List.not_mem_nil, or_false] at h
  rcases h with (rfl | rfl | rfl | h) | rfl | rfl
  · exact Or.inl plain_drives
  · exact Or.inl hdrive
  · exact Or.inl plain_root
  · exact Or.inr (Or.inl h)
  · exact Or.inr (Or.inr rfl)
  · exact Or.inl plain_content

/-- No piece hides dots if no folder does. -/
theorem not_hides_of_mem_pieces (hdrive : Plain (Text.trim c.drive))
    (hfolders : ∀ f ∈ folders, ¬Hides f) : ∀ s ∈ c.pieces folders last, ¬Hides s := by
  intro s hs
  rcases cases_of_mem_pieces hdrive hs with hplain | hfolder | rfl
  · exact hplain.not_hides
  · exact hfolders s hfolder
  · exact Url.not_hides_of_mem (by decide) (by decide) (colon_mem last)

/-- Only folders can be dots. -/
theorem filter_pieces (hdrive : Plain (Text.trim c.drive)) :
    (c.pieces folders last).filter (fun s => ¬IsDots s) =
      c.pieces (folders.filter fun f => ¬IsDots f) last := by
  have hlast : ¬IsDots (last ++ ":") := Url.not_isDots_of_mem (by decide) (colon_mem last)
  simp [Config.pieces, List.filter_append, hdrive.notDots, hlast, plain_drives.notDots,
    plain_root.notDots, plain_content.notDots]

/-- A place is its pieces, written. -/
theorem place_eq (hdrive : Plain (Text.trim c.drive)) : c.place folders last =
    ((c.pieces folders last).filter fun s => ¬IsDots s).map (written "https") := by
  rw [filter_pieces hdrive, Config.pieces, Config.place]
  simp only [List.map_append, List.map_cons, List.map_nil, written_drives, written_root,
    written_content, Url.written_append_colon]

/-- **No segment of a place leads to the place above**, and there is no slash in one. -/
theorem not_dots_of_mem_place (hdrive : Plain (Text.trim c.drive))
    (hfolders : ∀ f ∈ folders, ¬Hides f) : ∀ s ∈ c.place folders last,
      ¬Url.isHere s.toList ∧ ¬Url.isAbove s.toList ∧ '/' ∉ s.toList := by
  intro s hs
  rw [place_eq hdrive] at hs
  obtain ⟨piece, hpiece, rfl⟩ := List.mem_map.1 hs
  obtain ⟨hpiece, hdots⟩ := List.mem_filter.1 hpiece
  obtain ⟨hhere, habove⟩ := Url.written_not_dots "https" (by simpa using hdots)
    (not_hides_of_mem_pieces hdrive hfolders piece hpiece)
  exact ⟨hhere, habove, Url.slash_not_mem_written "https" piece⟩

theorem plain_append_colon (h : Plain last) : Plain (last ++ ":") := by
  refine ⟨Url.not_isDots_of_mem (by decide) (colon_mem last), fun ch hch => ?_⟩
  rw [String.toList_append] at hch
  rcases List.mem_append.1 hch with hch | hch
  · exact h.whole ch hch
  · obtain rfl : ch = ':' := by simpa using hch
    decide

theorem plain_of_mem_pieces (hdrive : Plain (Text.trim c.drive))
    (hnames : ∀ name ∈ folders ++ [last], Plain name) : ∀ s ∈ c.pieces folders last, Plain s := by
  intro s hs
  rcases cases_of_mem_pieces hdrive hs with hplain | hfolder | rfl
  · exact hplain
  · exact hnames s (by simp [hfolder])
  · exact plain_append_colon (hnames last (by simp))

/-- A place of plain names is read back as its pieces. -/
theorem decode_place (hdrive : Plain (Text.trim c.drive))
    (hnames : ∀ name ∈ folders ++ [last], Plain name) :
    (c.place folders last).map (fun s => (Url.Percent.decode s.toList).toByteArray) =
      (c.pieces folders last).map String.toUTF8 := by
  have hplain := plain_of_mem_pieces hdrive hnames
  have hall : (c.pieces folders last).filter (fun s => ¬IsDots s) = c.pieces folders last :=
    List.filter_eq_self.2 fun s hs => by simpa using (hplain s hs).notDots
  rw [place_eq hdrive, hall, Url.decode_map_written "https" hplain]

/-- A place of plain names tells them. -/
theorem place_inj (hdrive : Plain (Text.trim c.drive))
    (hnames : ∀ name ∈ folders ++ [last], Plain name)
    (hnames' : ∀ name ∈ folders' ++ [last'], Plain name)
    (h : c.place folders last = c.place folders' last') :
    folders ++ [last] = folders' ++ [last'] := by
  have hbytes := decode_place hdrive hnames
  rw [h, decode_place hdrive hnames'] at hbytes
  have hpieces : c.pieces folders last = c.pieces folders' last' :=
    List.map_injective_iff.2 (fun s t => String.toByteArray_inj.1) hbytes.symm
  simp only [Config.pieces, List.cons_append, List.cons.injEq, true_and] at hpieces
  obtain ⟨hfolders, hends⟩ := List.append_inj' hpieces rfl
  obtain ⟨hlast, -⟩ := List.cons.inj hends
  rw [hfolders, (String.append_left_inj ":").1 hlast]

/-! ## Addresses -/

/-- What the address of a file is: only the path is not that of the endpoint, and it is the place of
    the file below the trunk of the endpoint, from which the names are read back. -/
structure Config.Locates (c : Config) (base : Url) (list folders : List String) (last : String)
    (url : Url) : Prop where
  parts : ∃ segments, url = { base with path := .segments segments }
  segments : (∀ f ∈ folders, ¬Hides f) →
    url.path = .segments (trunk list ++ c.place folders last)
  below : (∀ f ∈ folders, ¬Hides f) → ∀ s ∈ c.place folders last,
    ¬Url.isHere s.toList ∧ ¬Url.isAbove s.toList ∧ '/' ∉ s.toList
  readBack : (∀ name ∈ folders ++ [last], Plain name) →
    (c.place folders last).map (fun s => (Url.Percent.decode s.toList).toByteArray) =
      (c.pieces folders last).map String.toUTF8

section
variable {base : Url} {list : List String} {path path' : String}
  (hbase : Url.ofText (Text.trim c.graphUrl) = .ok base) (hscheme : base.scheme = "https")
  (hlist : base.path = .segments list) (hdrive : Plain (Text.trim c.drive))
include hbase hscheme hlist hdrive

/-- A path with a name on it has an address. -/
theorem exists_address (hpath : Config.remoteNames path = folders ++ [last]) :
    ∃ url, c.contentUrl path = .ok url ∧ c.Locates base list folders last url := by
  have hhierarchical := Url.hierarchical_of_ofText hbase hscheme
  obtain ⟨segments, hpush⟩ := Url.push?_of_hierarchical hhierarchical (c.pieces folders last)
  refine ⟨{ base with path := .segments segments }, ?_, ⟨segments, rfl⟩, fun hfolders => ?_,
    not_dots_of_mem_place hdrive, decode_place hdrive⟩
  · rw [contentUrl_of_eq_concat hpath]
    exact joinedUrl_of_push? hbase hpush
  · have hwritten : base.push? (c.pieces folders last) =
        some { base with path := .segments (trunk list ++ c.place folders last) } := by
      rw [place_eq hdrive, ← hscheme]
      exact Url.push?_written hhierarchical.1 hlist (by rw [hscheme]; decide) (by decide)
        (by rw [hscheme, written_drives]; decide) (not_hides_of_mem_pieces hdrive hfolders)
    rw [hwritten] at hpush
    exact congrArg Url.path (Option.some.inj hpush).symm

/-- The text of an address tells the names on the path, if they are plain. -/
theorem remoteNames_eq_of_text_eq {url url' : Url}
    (hnames : ∀ name ∈ Config.remoteNames path, Plain name)
    (hnames' : ∀ name ∈ Config.remoteNames path', Plain name)
    (hurl : c.contentUrl path = .ok url) (hurl' : c.contentUrl path' = .ok url')
    (htext : url.text = url'.text) : Config.remoteNames path = Config.remoteNames path' := by
  -- the address of plain names is the endpoint with their place
  have hplace {path : String} {url : Url} (hnames : ∀ name ∈ Config.remoteNames path, Plain name)
      (hurl : c.contentUrl path = .ok url) : ∃ folders last,
        Config.remoteNames path = folders ++ [last] ∧ (∀ f ∈ folders, ¬Hides f) ∧
          url = { base with path := .segments (trunk list ++ c.place folders last) } := by
    rcases List.eq_nil_or_concat' (Config.remoteNames path) with hpath | ⟨folders, last, hpath⟩
    · rw [contentUrl_of_eq_nil hpath] at hurl
      cases hurl
    · obtain ⟨url', hurl', hlocates⟩ := exists_address hbase hscheme hlist hdrive hpath
      obtain rfl := Except.ok.inj (hurl.symm.trans hurl')
      have hfolders : ∀ f ∈ folders, ¬Hides f := fun f hf =>
        (hnames f (by simp [hpath, hf])).not_hides
      obtain ⟨segments, rfl⟩ := hlocates.parts
      exact ⟨folders, last, hpath, hfolders, by rw [← hlocates.segments hfolders]⟩
  obtain ⟨folders, last, hpath, hfolders, rfl⟩ := hplace hnames hurl
  obtain ⟨folders', last', hpath', hfolders', rfl⟩ := hplace hnames' hurl'
  have hauthority := (Url.hierarchical_of_ofText hbase hscheme).1
  have hsegments := Url.path_text_inj hauthority htext
  rw [Url.text_segments_append, Url.text_segments_append] at hsegments
  have hplaces : c.place folders last = c.place folders' last' :=
    Url.segments_inj (fun s hs => (not_dots_of_mem_place hdrive hfolders s hs).2.2)
      (fun s hs => (not_dots_of_mem_place hdrive hfolders' s hs).2.2)
      ((String.append_right_inj _).1 hsegments)
  rw [hpath, hpath']
  exact place_inj hdrive (hpath ▸ hnames) (hpath' ▸ hnames') hplaces

end

/-- How the files of the drive are addressed: a path of slashes and blanks has no address, any other
    one has, and paths of different names have different ones if the names are plain. -/
structure Config.Addresses (c : Config) (base : Url) (list : List String) : Prop where
  nowhere : ∀ path, (∀ ch ∈ path.toList, Text.IsFiller '/' ch) →
    c.contentUrl path = .error (.invalidUrl path "empty remote path")
  somewhere : ∀ path, (∃ ch ∈ path.toList, ¬Text.IsFiller '/' ch) → ∃ folders last url,
    Config.remoteNames path = folders ++ [last] ∧ c.contentUrl path = .ok url ∧
      c.Locates base list folders last url
  apart : ∀ path path' url url', (∀ name ∈ Config.remoteNames path, Plain name) →
    (∀ name ∈ Config.remoteNames path', Plain name) → c.contentUrl path = .ok url →
    c.contentUrl path' = .ok url' → url.text = url'.text →
      Config.remoteNames path = Config.remoteNames path'

/-- **Remote paths survive URL building**, whatever they are, if no folder on them hides dots. -/
theorem content_is_below_root (hready : c.preflight = .ok ()) (hdrive : Plain (Text.trim c.drive)) :
    ∃ base list, Url.ofText (Text.trim c.graphUrl) = .ok base ∧ base.scheme = "https" ∧
      base.path = .segments list ∧ c.Addresses base list := by
  obtain ⟨base, hbase, hscheme⟩ := (preflight_eq_ok.1 hready).graph
  obtain ⟨-, list, hlist⟩ := Url.hierarchical_of_ofText hbase hscheme
  refine ⟨base, list, hbase, hscheme, hlist, fun path hpath => ?_, fun path hpath => ?_,
    fun path path' url url' => remoteNames_eq_of_text_eq hbase hscheme hlist hdrive⟩
  · exact contentUrl_of_eq_nil (remoteNames_eq_nil_iff.2 hpath)
  · have hne : Config.remoteNames path ≠ [] := by
      rw [Ne, remoteNames_eq_nil_iff]
      simpa using hpath
    have hnames := (List.dropLast_concat_getLast hne).symm
    obtain ⟨url, hurl, hlocates⟩ := exists_address hbase hscheme hlist hdrive hnames
    exact ⟨_, _, url, hnames, hurl, hlocates⟩

theorem preflight_sample : sampleConfig.preflight = .ok () :=
  preflight_eq_ok.2 ready_sample

theorem plain_sample : Plain (Text.trim sampleConfig.drive) := by
  have htrim : Text.trim sampleConfig.drive = "drive-1" := by decide
  rw [htrim]
  exact ⟨by decide, by simp [Url.isDropped]⟩

theorem sample_content_is_below_root :
    sampleConfig.preflight = .ok () ∧ Plain (Text.trim sampleConfig.drive) ∧
      ∃ base list, Url.ofText (Text.trim sampleConfig.graphUrl) = .ok base ∧
        base.scheme = "https" ∧ base.path = .segments list ∧ sampleConfig.Addresses base list :=
  ⟨preflight_sample, plain_sample, content_is_below_root preflight_sample plain_sample⟩

/-- Settings with an endpoint whose path is two empty segments. -/
def doubledConfig : Config :=
  { sampleConfig with graphUrl := secure "a//" }

/-- The endpoint of these settings. -/
def doubledBase : Url :=
  ⟨"https", some ⟨"", "", .name "a", none⟩, .segments ["", ""], none, none⟩

theorem preflight_doubled : doubledConfig.preflight = .ok () :=
  preflight_eq_ok.2 { ready_sample with graph := ⟨doubledBase, by cbv, rfl⟩ }

/-- **Not every address is what the path says**: neither of two empty segments is left of an
    endpoint, and a folder that hides two dots takes the root away. -/
theorem some_addresses_are_elsewhere :
    (doubledConfig.preflight = .ok () ∧ Plain (Text.trim doubledConfig.drive) ∧
      Url.ofText (Text.trim doubledConfig.graphUrl) = .ok doubledBase ∧
      Config.remoteNames "b.pdf" = ["b.pdf"] ∧
      ∃ url, doubledConfig.contentUrl "b.pdf" = .ok url ∧
        url.path ≠ .segments (["", ""].dropLast ++ doubledConfig.place [] "b.pdf")) ∧
    sampleConfig.preflight = .ok () ∧ Plain (Text.trim sampleConfig.drive) ∧
      ∃ url, sampleConfig.contentUrl ".\t./x" = .ok url ∧
        url.path = .segments ["drives", "drive-1", "", "x:", "content"] := by
  refine ⟨⟨preflight_doubled, plain_sample, by cbv, by cbv,
    { doubledBase with path := .segments ["drives", "drive-1", "root:", "b.pdf:", "content"] },
    by cbv, ?_⟩, preflight_sample, plain_sample,
    ⟨"https", some ⟨"", "", .name "a", none⟩,
      .segments ["drives", "drive-1", "", "x:", "content"], none, none⟩, by cbv, rfl⟩
  have hplace : doubledConfig.place [] "b.pdf" =
      ["drives", "drive-1", "root:", "b.pdf:", "content"] := by cbv
  rw [hplace]
  decide

end Waybill.Drive

/-
  The endpoints of a drive that can be asked.

  A secure URL names a host and has a path of segments.  So once both endpoints are found secure,
  every place of the drive has a URL, and that is secure too.

  * `Url.Hierarchical`: a URL to which segments can be added;
  * `Config.Ready`: the settings name their credentials, the drive and two secure endpoints.

  Statements: `Url.hierarchical_of_ofText` (secure URLs are hierarchical), `preflight_eq_ok` (the
  settings that pass), `Ready.tokenUrl`, `Ready.driveUrl` and `Ready.contentUrl` (the places of the
  drive).
-/
import Mathlib
import Waybill.Drive.Client
import Waybill.Proofs.Store.Tables
import Waybill.Proofs.Text.Split

namespace Waybill.Url

/-! ## Secure URLs -/

/-- The URL names who is asked, and its path has segments. -/
def Hierarchical (u : Url) : Prop :=
  u.authority.isSome ∧ ∃ list, u.path = .segments list

theorem parts_withRest (scheme : String) (authority : Option Authority) (path : Path)
    (cs : List Char) :
    (withRest scheme authority path cs).scheme = scheme ∧
      (withRest scheme authority path cs).authority = authority ∧
      (withRest scheme authority path cs).path = path := by
  unfold withRest
  split <;> exact ⟨rfl, rfl, rfl⟩

theorem hierarchical_withPath (scheme : String) (authority : Authority) (cs : List Char) :
    (withPath scheme (some authority) cs).Hierarchical := by
  obtain ⟨-, hauthority, hpath⟩ := parts_withRest scheme (some authority) _ _
  exact ⟨by rw [withPath, hauthority]; rfl, _, hpath⟩

theorem hierarchical_of_withAuthority {scheme : String} {cs : List Char} {u : Url}
    (h : withAuthority scheme cs = .ok u) : u.Hierarchical := by
  unfold withAuthority at h
  dsimp only at h
  generalize authorityOf scheme _ _ = authority at h
  cases authority with
  | error e => cases h
  | ok authority =>
    cases h
    exact hierarchical_withPath ..

theorem hierarchical_of_fileOf {cs : List Char} {u : Url} (h : fileOf cs = .ok u) :
    u.Hierarchical := by
  have hpath (authority : Authority) (rest : List Char)
      (h : Except.ok (withPath "file" (some authority) rest) = (.ok u : Except UrlError Url)) :
      u.Hierarchical := Except.ok.inj h ▸ hierarchical_withPath "file" authority rest
  unfold fileOf at h
  dsimp only at h
  split at h
  · split at h
    · split at h
      · exact hpath _ _ h
      · split at h
        · exact hpath _ _ h
        · generalize Host.ofText _ = host at h
          cases host with
          | error e => cases h
          | ok host => exact hpath _ _ h
    · exact hpath _ _ h
  · exact hpath _ _ h

/-- **A secure URL is hierarchical.** -/
theorem hierarchical_of_ofText {text : String} {u : Url} (h : ofText text = .ok u)
    (hs : u.scheme = "https") : u.Hierarchical := by
  unfold ofText at h
  dsimp only at h
  split at h
  · cases h
  · next scheme rest _ =>
    split at h
    · exact hierarchical_of_fileOf h
    · split at h
      · exact hierarchical_of_withAuthority h
      · next hspecial =>
        -- a URL without a host has another scheme than the secure one
        have hne (authority : Option Authority) (path : Path) (cs : List Char)
            (h : Except.ok (withRest scheme authority path cs) = (.ok u : Except UrlError Url)) :
            u.Hierarchical := by
          obtain rfl := Except.ok.inj h
          rw [(parts_withRest ..).1] at hs
          rw [hs] at hspecial
          exact absurd rfl hspecial
        split at h
        · exact hierarchical_of_withAuthority h
        · exact hne _ _ _ h
        · exact hne _ _ _ h

/-- Segments can be added to a hierarchical URL, and only its path is another then. -/
theorem push?_of_hierarchical {u : Url} (h : u.Hierarchical) (segments : List String) :
    ∃ list, u.push? segments = some { u with path := .segments list } := by
  obtain ⟨hauthority, list, hpath⟩ := h
  have hnone : ¬(u.authority.isNone && list.isEmpty) := by
    simp [Option.isNone_eq_false_iff.2 hauthority]
  unfold push?
  simp only [hpath, hnone]
  exact ⟨_, rfl⟩

end Waybill.Url

namespace Waybill.Drive

variable {c : Config}

/-! ## Settings that pass -/

theorem checkSecure_eq_ok {u : Url} {v : Unit} :
    checkSecure u = .ok v ↔ u.scheme = "https" := by
  unfold checkSecure
  split <;> simp_all

/-- A text that is a secure URL, blanks around it aside. -/
def IsSecure (text : String) : Prop :=
  ∃ u, Url.ofText (Text.trim text) = .ok u ∧ u.scheme = "https"

theorem readUrl_eq_ok {text : String} {u : Url} :
    readUrl text = .ok u ↔ Url.ofText (Text.trim text) = .ok u := by
  unfold readUrl
  cases Url.ofText (Text.trim text) <;> simp [Except.mapError]

/-- The settings name the three credentials, the drive and two secure endpoints. -/
structure Config.Ready (c : Config) : Prop where
  tenant : ¬Text.isBlankText c.tenant
  client : ¬Text.isBlankText c.client
  secret : ¬Text.isBlankText c.secret
  drive : ¬Text.isBlankText c.drive
  authority : IsSecure c.authorityUrl
  graph : IsSecure c.graphUrl

theorem missing_eq_nil : c.missing = [] ↔
    ¬Text.isBlankText c.tenant ∧ ¬Text.isBlankText c.client ∧ ¬Text.isBlankText c.secret := by
  simp [Config.missing]

theorem check_eq_ok {v : Unit} : c.check = .ok v ↔ c.missing = [] ∧ ¬Text.isBlankText c.drive := by
  unfold Config.check
  cases h : c.missing <;> cases Text.isBlankText c.drive <;> simp

theorem mapError_eq_ok {ε δ α : Type} {f : ε → δ} {x : Except ε α} {a : α} :
    x.mapError f = .ok a ↔ x = .ok a := by
  cases x <;> simp [Except.mapError]

/-- **The settings pass exactly when they are ready.** -/
theorem preflight_eq_ok {v : Unit} : c.preflight = .ok v ↔ c.Ready := by
  simp only [Config.preflight, except_bind_eq_ok, mapError_eq_ok, check_eq_ok, missing_eq_nil,
    readUrl_eq_ok, checkSecure_eq_ok]
  constructor
  · rintro ⟨_, ⟨⟨htenant, hclient, hsecret⟩, hdrive⟩, u, hu, _, hus, w, hw, hws⟩
    exact ⟨htenant, hclient, hsecret, hdrive, ⟨u, hu, hus⟩, w, hw, hws⟩
  · rintro ⟨htenant, hclient, hsecret, hdrive, ⟨u, hu, hus⟩, w, hw, hws⟩
    exact ⟨(), ⟨⟨htenant, hclient, hsecret⟩, hdrive⟩, u, hu, (), hus, w, hw, hws⟩

/-! ## Places of the drive -/

theorem joinedUrl_of_push? {base : String} {segments : List String} {u v : Url}
    (hu : Url.ofText (Text.trim base) = .ok u) (hv : u.push? segments = some v) :
    joinedUrl base segments = .ok v := by
  rw [joinedUrl, except_bind_eq_ok]
  exact ⟨u, readUrl_eq_ok.2 hu, by rw [hv]; rfl⟩

/-- Segments can be added to a secure endpoint, and the place is secure. -/
theorem exists_joinedUrl {base : String} (h : IsSecure base) (segments : List String) :
    ∃ u, joinedUrl base segments = .ok u ∧ u.scheme = "https" := by
  obtain ⟨u, hu, hs⟩ := h
  obtain ⟨list, hv⟩ := Url.push?_of_hierarchical (Url.hierarchical_of_ofText hu hs) segments
  exact ⟨_, joinedUrl_of_push? hu hv, hs⟩

theorem Config.Ready.tokenUrl (h : c.Ready) : ∃ u, c.tokenUrl = .ok u ∧ u.scheme = "https" :=
  exists_joinedUrl h.authority _

theorem Config.Ready.driveUrl (h : c.Ready) (segments : List String) :
    ∃ u, c.driveUrl segments = .ok u ∧ u.scheme = "https" :=
  exists_joinedUrl h.graph _

/-- The names on a path of the drive are those between its slashes. -/
theorem remoteNames_eq (path : String) :
    Config.remoteNames path = (Text.names '/' path.toList).map String.ofList := by
  have hmap : ((Text.splitOn '/' path.toList).map fun piece => String.ofList (Text.trimmed piece)) =
      ((Text.splitOn '/' path.toList).map Text.trimmed).map String.ofList := by
    rw [List.map_map]
    rfl
  rw [Config.remoteNames, hmap, List.filter_map, Text.names]
  congr 2
  funext name
  rw [Bool.eq_iff_iff]
  simp

/-- There is no name on a path of slashes and blanks. -/
theorem remoteNames_eq_nil_iff {path : String} :
    Config.remoteNames path = [] ↔ ∀ ch ∈ path.toList, Text.IsFiller '/' ch := by
  rw [remoteNames_eq, List.map_eq_nil_iff, Text.names_eq_nil_iff]

theorem contentUrl_of_eq_nil {path : String} (h : Config.remoteNames path = []) :
    c.contentUrl path = .error (.invalidUrl path "empty remote path") := by
  simp [Config.contentUrl, h]

/-- A path with a name on it is that of a place of the drive. -/
theorem contentUrl_of_eq_concat {path last : String} {folders : List String}
    (h : Config.remoteNames path = folders ++ [last]) :
    c.contentUrl path = c.driveUrl ("root:" :: folders ++ [last ++ ":", "content"]) := by
  simp [Config.contentUrl, h]

theorem contentUrl_of_ne_nil {path : String} (h : Config.remoteNames path ≠ []) :
    ∃ segments, c.contentUrl path = c.driveUrl segments :=
  ⟨_, contentUrl_of_eq_concat (List.dropLast_concat_getLast h).symm⟩

/-- The path of a file that is to be converted has a name on it, since there is a dash in it. -/
theorem remoteNames_tempPath_ne_nil (c : Config) (fresh name : String) :
    Config.remoteNames (tempPath c fresh name) ≠ [] := by
  have hdash : '-' ∈ (tempPath c fresh name).toList := by simp [tempPath]
  intro h
  have hfiller : Text.IsFiller '/' '-' := remoteNames_eq_nil_iff.1 h '-' hdash
  exact absurd hfiller (by decide)

/-- A file that is to be converted can be stored. -/
theorem Config.Ready.contentUrl (h : c.Ready) (fresh name : String) :
    ∃ u, c.contentUrl (tempPath c fresh name) = .ok u ∧ u.scheme = "https" := by
  obtain ⟨segments, hurl⟩ := contentUrl_of_ne_nil (remoteNames_tempPath_ne_nil c fresh name)
  rw [hurl]
  exact h.driveUrl segments

end Waybill.Drive

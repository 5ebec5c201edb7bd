/-
  JSON values.

  * `Json` is a value with the members of a record in the order of the text, repeated names
    included; a string or number that is well formed but denotes no value, and a value nested
    too deeply, is `unreadable`;
  * `Json.byName` gives members by name, the last of equal names;
  * `Json.isReadable`: no part of the value is unreadable.

  Statements: `mem_insertByName` and `find?_insertByName` (what inserting a member leaves).
-/
import Waybill.Instances

namespace Waybill

/-- A JSON value. -/
inductive Json where
  | null
  | bool (b : Bool)
  /-- A number written without fraction and exponent, from `-2 ^ 63` to `2 ^ 64 - 1`. -/
  | int (n : Int)
  | float (x : Float)
  | text (s : String)
  | list (items : List Json)
  | record (members : List (String × Json))
  | unreadable
  deriving Inhabited

namespace Json

/-- An empty record. -/
def empty : Json := .record []

/-- The value of what is there, and `null` for nothing. -/
def ofOption {α : Type} (value : α → Json) : Option α → Json
  | some a => value a
  | none => .null

/-! ## Members by name -/

/-- The members with one more, in the order of names; a member of the same name is replaced. -/
def insertByName {α : Type} (name : String) (value : α) :
    List (String × α) → List (String × α)
  | [] => [(name, value)]
  | (n, v) :: rest =>
    if name < n then (name, value) :: (n, v) :: rest
    else if name = n then (name, value) :: rest
    else (n, v) :: insertByName name value rest

theorem mem_insertByName {α : Type} {name : String} {value : α} {members : List (String × α)}
    {m : String × α} (h : m ∈ insertByName name value members) :
    m = (name, value) ∨ m ∈ members := by
  induction members with
  | nil => simp_all [insertByName]
  | cons head rest ih =>
    obtain ⟨n, v⟩ := head
    unfold insertByName at h
    split at h
    · simp_all
    · split at h
      · simp only [List.mem_cons] at h ⊢
        rcases h with h | h
        · exact .inl h
        · exact .inr (.inr h)
      · simp only [List.mem_cons] at h ⊢
        rcases h with h | h
        · exact .inr (.inl h)
        · rcases ih h with h | h
          · exact .inl h
          · exact .inr (.inr h)

theorem find?_insertByName {α : Type} (name key : String) (value : α)
    (members : List (String × α)) :
    ((insertByName name value members).find? fun m => m.1 == key) =
      if name = key then some (name, value) else members.find? fun m => m.1 == key := by
  induction members with
  | nil =>
    by_cases h : name = key <;> simp [insertByName, h]
  | cons head rest ih =>
    obtain ⟨n, v⟩ := head
    unfold insertByName
    split
    · by_cases h : name = key <;> simp [h]
    · split
      · next heq =>
        subst heq
        by_cases h : name = key <;> simp [h]
      · next hne =>
        by_cases hn : n = key
        · subst hn
          simp [hne]
        · rw [List.find?_cons_of_neg (by simpa using hn), ih,
            List.find?_cons_of_neg (by simpa using hn)]

/-- The members in the order of names, the last of equal names. -/
def byName {α : Type} (members : List (String × α)) : List (String × α) :=
  members.foldl (fun done m => insertByName m.1 m.2 done) []

/-- The member of a record, the last of that name. -/
def member? (name : String) : Json → Option Json
  | .record members => (members.reverse.find? fun m => m.1 == name).map (·.2)
  | _ => none

/-! ## Readable values -/

mutual

/-- No part of the value is unreadable. -/
def isReadable : Json → Bool
  | .unreadable => false
  | .list items => areReadable items
  | .record members => haveReadable members
  | _ => true

/-- All items are readable. -/
def areReadable : List Json → Bool
  | [] => true
  | item :: items => isReadable item && areReadable items

/-- All members are readable. -/
def haveReadable : List (String × Json) → Bool
  | [] => true
  | (_, value) :: members => isReadable value && haveReadable members

end

end Json

end Waybill

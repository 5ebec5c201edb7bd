/-
  Punycode: labels of any characters written in ASCII.

  The ASCII characters come first; after a hyphen follow the others in the order of their codes,
  each as the number of steps from the one before, written in digits whose weights adapt.

  * `encode` writes a label, and `decode?` reads one.
-/

namespace Waybill.Url.Punycode

/-! ## Digits and weights -/

/-- The character of a digit below 36. -/
def digitChar (d : Nat) : Char :=
  if d < 26 then Char.ofNat (97 + d) else Char.ofNat (22 + d)

/-- The digit of a character, in either case. -/
def digit? (c : Char) : Option Nat :=
  if 'a' ≤ c && c ≤ 'z' then some (c.toNat - 97)
  else if 'A' ≤ c && c ≤ 'Z' then some (c.toNat - 65)
  else if c.isDigit then some (c.toNat - 22)
  else none

/-- The threshold of the digit at a place. -/
def threshold (place bias : Nat) : Nat :=
  if place ≤ bias then 1 else if bias + 26 ≤ place then 26 else place - bias

theorem threshold_pos (place bias : Nat) : 0 < threshold place bias := by
  unfold threshold
  split
  · omega
  · split <;> omega

/-- How often a number of steps goes into the range of digits, and what is left. -/
def reduced (delta place : Nat) : Nat × Nat :=
  if 455 < delta then reduced (delta / 35) (place + 36) else (delta, place)
  termination_by delta

/-- The bias after a number of steps, when so many characters are written. -/
def adapted (delta count : Nat) (first : Bool) : Nat :=
  let delta := if first then delta / 700 else delta / 2
  let (delta, place) := reduced (delta + delta / count) 0
  place + 36 * delta / (delta + 38)

/-! ## Writing -/

/-- The digits of a number of steps. -/
def digits (bias place n : Nat) : List Char :=
  let t := threshold place bias
  if n < t then [digitChar n]
  else digitChar (t + (n - t) % (36 - t)) :: digits bias (place + 36) ((n - t) / (36 - t))
  termination_by n
  decreasing_by
    have := threshold_pos place bias
    have := Nat.div_le_self (n - threshold place bias) (36 - threshold place bias)
    omega

/-- What is known while a label is written: what is written, the steps since the last character, the
    bias, and how many characters are written. -/
structure Writer where
  out : List Char
  delta : Nat
  bias : Nat
  count : Nat

/-- Passes one character of the label, the one with this code being written. -/
def Writer.pass (basic code : Nat) (w : Writer) (c : Char) : Writer :=
  if c.toNat < code then { w with delta := w.delta + 1 }
  else if c.toNat = code then
    { out := w.out ++ digits w.bias 36 w.delta
      delta := 0
      bias := adapted w.delta (w.count + 1) (w.count == basic)
      count := w.count + 1 }
  else w

/-- Writes the characters of these codes, in order; `next` is the least code not handled yet. -/
def Writer.all (cs : List Char) (basic : Nat) : List Nat → Nat → Writer → Writer
  | [], _, w => w
  | code :: codes, next, w =>
    let w := { w with delta := w.delta + (code - next) * (w.count + 1) }
    let w := cs.foldl (Writer.pass basic code) w
    Writer.all cs basic codes (code + 1) { w with delta := w.delta + 1 }

/-- A label in ASCII. -/
def encode (cs : List Char) : List Char :=
  let plain := cs.filter fun c => c.toNat < 0x80
  let codes := (((cs.filter fun c => 0x80 ≤ c.toNat).map Char.toNat).mergeSort (· ≤ ·)).eraseDups
  let start : Writer :=
    ⟨plain ++ (if plain.isEmpty then [] else ['-']), 0, 72, plain.length⟩
  (Writer.all cs plain.length codes 0x80 start).out

/-! ## Reading -/

/-- A number of steps off the front: what it adds to `steps`, and the rest. -/
def steps? (bias : Nat) : Nat → Nat → Nat → List Char → Option (Nat × List Char)
  | _, _, _, [] => none
  | place, weight, steps, c :: cs => do
    let d ← digit? c
    let steps := steps + d * weight
    let t := threshold place bias
    if d < t then return (steps, cs) else steps? bias (place + 36) (weight * (36 - t)) steps cs

theorem length_steps?_lt {bias place weight steps n : Nat} {cs rest : List Char}
    (h : steps? bias place weight steps cs = some (n, rest)) : rest.length < cs.length := by
  induction cs generalizing place weight steps with
  | nil => simp [steps?] at h
  | cons c cs ih =>
    unfold steps? at h
    cases hd : digit? c with
    | none => simp [hd] at h
    | some d =>
      simp only [hd, Option.bind_eq_bind, Option.bind_some] at h
      split at h
      · simp only [pure, Option.some.injEq, Prod.mk.injEq] at h
        rw [← h.2]; simp
      · exact Nat.lt_succ_of_lt (ih h)

/-- The rest of a label after its ASCII characters. -/
def insertAll? (out : List Char) (code start bias : Nat) (first : Bool) (cs : List Char) :
    Option (List Char) :=
  if cs.isEmpty then some out
  else
    match h : steps? bias 36 1 start cs with
    | none => none
    | some (n, rest) =>
      let size := out.length + 1
      let code := code + n / size
      let place := n % size
      if code.isValidChar then
        have := length_steps?_lt h
        insertAll? (out.take place ++ Char.ofNat code :: out.drop place) code (place + 1)
          (adapted (n - start) size first) false rest
      else none
  termination_by cs.length

/-- The label that was written in ASCII. -/
def decode? (cs : List Char) : Option (List Char) :=
  let back := cs.reverse
  let tail := (back.takeWhile (· ≠ '-')).reverse
  let plain := ((back.dropWhile (· ≠ '-')).drop 1).reverse
  insertAll? plain 0x80 0 72 true tail

end Waybill.Url.Punycode

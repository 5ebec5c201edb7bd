/-
  Instances that are not left to chance.

  Powers of numbers and the comparison of byte arrays are those of the core library, also beside a
  library that brings others.
-/

attribute [instance (1100)] instPowNat ByteArray.instDecidableEq

-- an exponent that is a numeral gets its type by default, before any instance is looked for
attribute [default_instance 20000] instPowNat

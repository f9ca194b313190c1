/-!
# `InputScript.Text.AsciiCase`: comparison that ignores ASCII case

Names are compared after lowering the letters `A` to `Z`; every other character
stands for itself. `sameName_refl`, `sameName_symm` and `sameName_trans` make it an
equivalence.
-/

set_option autoImplicit false

namespace InputScript.Text

/-- Lowers the letters `A` to `Z`. -/
def lower (cs : List Char) : List Char :=
  cs.map Char.toLower

/-- Whether two names differ at most in the case of ASCII letters. -/
def sameName (a b : String) : Bool :=
  lower a.toList == lower b.toList

/-- Two names are the same exactly when they are equal once lowered. -/
theorem sameName_iff {a b : String} :
    sameName a b = true ↔ lower a.toList = lower b.toList :=
  beq_iff_eq

/-- A name is the same as itself. -/
@[simp] theorem sameName_refl (a : String) : sameName a a = true :=
  sameName_iff.mpr rfl

/-- The order of the two names does not matter. -/
theorem sameName_symm {a b : String} (h : sameName a b = true) : sameName b a = true :=
  sameName_iff.mpr (sameName_iff.mp h).symm

/-- Two names that are the same as a third are the same. -/
theorem sameName_trans {a b c : String} (hab : sameName a b = true)
    (hbc : sameName b c = true) : sameName a c = true :=
  sameName_iff.mpr ((sameName_iff.mp hab).trans (sameName_iff.mp hbc))

end InputScript.Text

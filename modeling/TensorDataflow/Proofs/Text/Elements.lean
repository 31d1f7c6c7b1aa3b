import TensorDataflow.Element.Render
import TensorDataflow.Proofs.Text.Numerals
/-!
# Texts of elements

Bytes of the right length are always written as something other than a question mark, whatever the
kind and however many places are asked for, so a question mark in a listing stands where there were
no such bytes. And no kind writes all bytes alike.
-/

namespace TensorDataflow

/-- Some character of a text is a digit. -/
def HasDigit (text : String) : Prop := text.toList.any isDigit

instance (text : String) : Decidable (HasDigit text) := inferInstanceAs (Decidable (_ = true))

theorem hasDigit_toString (n : Nat) : HasDigit (toString n) := by
  obtain ⟨c, hc⟩ := List.exists_mem_of_ne_nil _ (numeral_ne_nil n)
  rw [HasDigit, toList_toString, List.any_eq_true]
  exact ⟨c, hc, isDigit_of_mem_numeral n c hc⟩

theorem hasDigit_append {front rest : String} :
    HasDigit (front ++ rest) ↔ HasDigit front ∨ HasDigit rest := by
  rw [HasDigit, String.toList_append, List.any_append, Bool.or_eq_true, HasDigit, HasDigit]

/-- A text with a digit is not one without. -/
theorem HasDigit.ne {text other : String} (h : HasDigit text) (hother : ¬ HasDigit other) :
    text ≠ other := by
  intro hsame
  exact hother (hsame ▸ h)

theorem hasDigit_int (z : Int) : HasDigit (toString z) := by
  cases z with
  | ofNat n => exact hasDigit_toString n
  | negSucc n => exact hasDigit_append.2 (.inr (hasDigit_toString (n + 1)))

theorem hasDigit_pointedText (places units : Nat) : HasDigit (pointedText places units) := by
  rw [pointedText]
  split
  · exact hasDigit_toString units
  · rw [String.append_assoc]
    exact hasDigit_append.2 (.inl (hasDigit_toString _))

namespace FloatValue

theorem hasDigit_fixed (places : Nat) (negative : Bool) (mantissa : Nat) (exponent : Int) :
    HasDigit ((finite negative mantissa exponent).fixed places) :=
  hasDigit_append.2 (.inr (hasDigit_pointedText _ _))

theorem fixed_ne_mark (places : Nat) (v : FloatValue) : v.fixed places ≠ "?" := by
  cases v with
  | nan =>
      change "NaN" ≠ "?"
      decide
  | infinite negative =>
      rw [fixed]
      cases negative <;> decide
  | finite negative mantissa exponent =>
      exact (hasDigit_fixed places negative mantissa exponent).ne (by decide)

/-- A number is not written like what is none. -/
theorem fixed_ne_nan (places : Nat) {v w : FloatValue}
    (hv : ∃ negative mantissa exponent, v = finite negative mantissa exponent) (hw : w = nan) :
    v.fixed places ≠ w.fixed places := by
  obtain ⟨negative, mantissa, exponent, rfl⟩ := hv
  subst hw
  exact (hasDigit_fixed places negative mantissa exponent).ne (by rw [fixed]; decide)

end FloatValue

namespace ElementKind

/-- Bytes of the right length are not written as a question mark. -/
theorem render_ne_mark {kind : ElementKind} {bytes : List UInt8} (h : bytes.length = kind.size)
    (places : Nat) : kind.render bytes places ≠ "?" := by
  have hmark : ¬ HasDigit "?" := by decide
  rw [render, if_pos h]
  cases kind with
  | bool =>
      dsimp only
      split <;> decide
  | byte | u8 | u16 | u32 | u64 => exact (hasDigit_toString _).ne hmark
  | i8 | i16 | i32 | i64 => exact (hasDigit_int _).ne hmark
  | f16 | bf16 | f32 | f64 => exact FloatValue.fixed_ne_mark places _
  | f8 | c16 | c32 | c64 | c128 =>
      have hfront : HasDigit "0x" := by decide
      exact (hasDigit_append.2 (.inl hfront)).ne hmark

/-- Bytes that are all zero and bytes that are all ones are written differently. -/
theorem render_zeros_ne_ones (kind : ElementKind) (places : Nat) :
    kind.render (List.replicate kind.size 0) places ≠
      kind.render (List.replicate kind.size 255) places := by
  rw [render, if_pos List.length_replicate, render, if_pos List.length_replicate]
  cases kind with
  | f16 | bf16 | f32 | f64 => exact FloatValue.fixed_ne_nan places ⟨_, _, _, rfl⟩ rfl
  | _ =>
      -- the number of places plays no part
      dsimp only
      decide +kernel

end ElementKind

end TensorDataflow

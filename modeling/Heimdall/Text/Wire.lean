import Heimdall.Text.Json
import Heimdall.Text.Utf8

/-!
# JSON texts as bytes

`dumpsBytes` prints a value without escaping what is outside ASCII and encodes the text as UTF-8;
`loadsBytes` reads such bytes back. A printed value has no line feed, so that a line feed can end
it, and a string takes at most six bytes for each of its own and two more.
-/

namespace Json

open Utf8

/-- `dumps(value, ensure_ascii=False).encode("utf-8")` -/
def dumpsBytes (v : Value) : List UInt8 := encode (print false v)

/-- `loads(payload)` of bytes in UTF-8. -/
def loadsBytes (payload : List UInt8) : Option Value :=
  (decodeStrict payload).bind fun cs ↦ loads (String.ofList cs)

theorem loadsBytes_dumpsBytes {v : Value} (hv : v.Printable) :
    loadsBytes (dumpsBytes v) = some v := by
  have hloads : loads (dumps false v ++ "") = some v := loads_dumps false hv (by simp)
  rw [String.append_empty, dumps] at hloads
  rw [loadsBytes, dumpsBytes, decodeStrict_encode, Option.bind_some, hloads]

theorem notMem_dumpsBytes {b : UInt8} (hb : b.toNat < 0x20) (v : Value) : b ∉ dumpsBytes v := by
  intro h
  have hchar := graphic_print false v _ (mem_of_mem_encode h (by omega))
  have hall : ∀ n : Fin 0x20, ¬ Graphic (Char.ofNat n.val) := by decide
  exact hall ⟨b.toNat, hb⟩ hchar

/-! ## Sizes -/

theorem length_encode_cons (c : Char) (cs : List Char) :
    (encode (c :: cs)).length = (String.utf8EncodeChar c).length + (encode cs).length := by
  rw [encode_cons, List.length_append]

theorem length_encode_hex4 (n : ℕ) : (encode (hex4 n)).length = 4 := by
  have hdigit : ∀ m, (String.utf8EncodeChar (Nat.digitChar (m % 16))).length = 1 := by
    intro m
    have key : ∀ d : Fin 16, (String.utf8EncodeChar (Nat.digitChar d.val)).length = 1 := by decide
    exact key ⟨m % 16, Nat.mod_lt m (by decide)⟩
  simp only [hex4, length_encode_cons, hdigit]
  rfl

theorem length_encode_escapeChar (c : Char) :
    (encode (escapeChar false c)).length ≤ 6 * (String.utf8EncodeChar c).length := by
  have hpos : 0 < (String.utf8EncodeChar c).length :=
    List.length_pos_iff.mpr String.utf8EncodeChar_ne_nil
  unfold escapeChar
  split_ifs with _ _ _ _ _ _ _ hescape
  iterate 7 · exact (show _ ≤ 6 by decide).trans (Nat.le_mul_of_pos_right 6 hpos)
  · have hsmall : c.toNat < 0x10000 := by
      rcases hescape with h | ⟨h, -⟩
      · omega
      · cases h
    have hbackslash : (String.utf8EncodeChar '\\').length = 1 := by decide
    have hu : (String.utf8EncodeChar 'u').length = 1 := by decide
    rw [unicodeEscape, if_pos hsmall, length_encode_cons, length_encode_cons, length_encode_hex4,
      hbackslash, hu]
    omega
  · rw [length_encode_cons, show encode [] = [] from rfl, List.length_nil]
    omega

/-- A printed string takes at most six times its bytes, and its quotes. -/
theorem length_encode_printString (s : String) :
    (encode (printString false s)).length ≤ 6 * (encode s.toList).length + 2 := by
  have hbody : ∀ cs : List Char,
      (encode (cs.flatMap (escapeChar false))).length ≤ 6 * (encode cs).length := by
    intro cs
    induction cs with
    | nil => exact Nat.le_refl 0
    | cons c cs ih =>
      have hc := length_encode_escapeChar c
      rw [List.flatMap_cons, encode_append, List.length_append, length_encode_cons]
      omega
  have hquote : (String.utf8EncodeChar '"').length = 1 := by decide
  have hs := hbody s.toList
  rw [printString, length_encode_cons, encode_append, List.length_append, length_encode_cons,
    hquote, show encode [] = [] from rfl, List.length_nil]
  omega

end Json

import TimerAndCallback.Common.Util

/-! # Strings on a stream

The length of a string is agreed on beside the stream, but both of its codecs copy
characters as a C string, up to the first zero. A string is transferred when the two
agree on where it ends.
-/

namespace TimerAndCallback

open ByteStream

/-- Whatever the new buffer held, the same bytes are written, as many as the string has,
and the string is read back from them and nothing behind them. -/
def StringTransferred (value : BasicString) : Prop :=
  ∃ bytes, (∀ memory os, serializeString memory value os = os ++ bytes) ∧
    bytes.length = value.length ∧
    ∀ following, (deserializeString (UInt32.ofNat value.length)).run (bytes ++ following) =
      some (value, following)

/-- A string without a zero fills the part of the buffer that is written. -/
theorem serializeString_appends (memory : Buffer) {value : BasicString} (unbroken : 0 ∉ value) :
    Appends (serializeString memory value) value := by
  intro os
  have written : (memory.store 0 (value ++ [0])).load 0 value.length = value :=
    memory.load_store_part [] value [0] rfl rfl
  rw [serializeString, cString_eq_self_iff.mpr unbroken]
  exact congrArg (os ++ ·) written

/-- `deserializeString` delivers the text of the bytes it is told to read. -/
theorem deserializeString_delivers_iff {datalen : UInt32} {bytes : List UInt8}
    {value : BasicString} :
    Delivers (deserializeString datalen) bytes value ↔
      datalen + 1 ≠ 0 ∧ bytes.length = datalen.toNat ∧ cString bytes = value := by
  unfold deserializeString
  by_cases wrapped : datalen + 1 = 0
  · rw [if_pos wrapped]
    refine iff_of_false (fun delivers => ?_) fun fits => fits.1 wrapped
    exact Option.some_ne_none _ (delivers []).symm
  · rw [if_neg wrapped, delivers_take_map_iff]
    exact (and_iff_right wrapped).symm

/-- A string is transferred if and only if it has no zero byte and its length, with the
terminator, fits in a `UINT32`. -/
theorem stringTransferred_iff (value : BasicString) :
    StringTransferred value ↔ 0 ∉ value ∧ value.length < 2 ^ 32 - 1 := by
  have wraps : UInt32.ofNat value.length + 1 ≠ 0 ↔ value.length % 2 ^ 32 ≠ 2 ^ 32 - 1 := by
    rw [Ne, ← UInt32.toNat_inj, UInt32.toNat_add, UInt32.toNat_ofNat']
    change ¬ (value.length % 2 ^ 32 + 1) % 2 ^ 32 = 0 ↔ _
    omega
  constructor
  · rintro ⟨bytes, _, length, delivers⟩
    obtain ⟨room, asked, same⟩ := deserializeString_delivers_iff.mp delivers
    rw [UInt32.toNat_ofNat'] at asked
    refine ⟨same ▸ zero_notMem_cString bytes, ?_⟩
    have last := wraps.mp room
    omega
  · rintro ⟨unbroken, short⟩
    refine ⟨value, fun memory => serializeString_appends memory unbroken, rfl, ?_⟩
    refine deserializeString_delivers_iff.mpr ⟨wraps.mpr (by omega), ?_, ?_⟩
    · rw [UInt32.toNat_ofNat']
      omega
    · exact cString_eq_self_iff.mpr unbroken

/-- Of `a`, a zero and `b` the third byte that is written is what the buffer held, and
the string read back is `a`. -/
theorem string_cut_at_zero :
    serializeString (fun _ => 7) [97, 0, 98] [] = [97, 0, 7] ∧
      serializeString (fun _ => 8) [97, 0, 98] [] = [97, 0, 8] ∧
      (deserializeString 3).run [97, 0, 7] = some ([97], []) ∧
      ¬ StringTransferred [97, 0, 98] := by
  refine ⟨by decide, by decide, by decide, ?_⟩
  rintro ⟨bytes, written, _⟩
  have seven := written (fun _ => 7) []
  have eight := written (fun _ => 8) []
  exact absurd (seven.trans eight.symm) (by decide)

end TimerAndCallback

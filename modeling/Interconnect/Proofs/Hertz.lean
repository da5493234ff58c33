import Interconnect.Point.Basic
import Interconnect.Proofs.Frequency
import Interconnect.Proofs.Validity.Field

/-! # Rates without a unit

A rate that is a bare number is taken as it is. The digits of the number are read through
binary64, so the rate is the number only when it has at most 53 significant binary digits or
is the largest word; from `2 ^ 64` on it is the largest word until there is no binary64
number near.
-/

namespace Interconnect.Frequency

open Binary64 (Exact overflow)

variable {s : String} {n : ℕ} {x : Binary64}

/-- The digits of `n` are read as `n` hertz. -/
def Kept (n : ℕ) : Prop := Exact n ∨ n = 2 ^ 64 - 1

/-- How a digit string of `n` is read as a rate, and what a clock declared with it has in common
with one declared with the number. -/
structure ReadsDigits (s : String) (n : ℕ) : Prop where
  read : n < 2 ^ 64 →
    ∃ f, parse s = .ok f ∧ |(n : ℚ) - f.hz.toNat| ≤ n / 2 ^ 53 ∧ (f.hz.toNat = n ↔ Kept n)
  saturated : 2 ^ 64 ≤ n → n < overflow → parse s = .ok ⟨UInt64.ofNat (2 ^ 64 - 1)⟩
  refused : overflow ≤ n → parse s = .error ⟨s⟩
  clock : ∀ name (hz : UInt64), hz.toNat = n →
    (Clock.resolve ⟨name, some (.text s)⟩ = Clock.resolve ⟨name, some (.number hz)⟩ ↔ Kept n)
  clockReset : ∀ env (d : ClockReset) (hz : UInt64), hz.toNat = n →
    ∀ reset, Reset.resolve d.resetDeclaration = .ok reset →
      (Point.ofDeclaration env (.clockReset { d with rate := some (.text s) })
        = Point.ofDeclaration env (.clockReset { d with rate := some (.number hz) }) ↔ Kept n)

theorem hz_ofBinary64 (x : Binary64) :
    (ofBinary64 (some x)).hz.toNat = min x.round (2 ^ 64 - 1) :=
  UInt64.toNat_ofNat_of_lt (by change min _ (2 ^ 64 - 1) < 2 ^ 64; omega)

theorem abs_sub_hz_ofBinary64_le (hn : n < 2 ^ 64) (hx : Binary64.nearest n 1 = some x) :
    |(n : ℚ) - (ofBinary64 (some x)).hz.toNat| ≤ n / 2 ^ 53 := by
  have herror := Binary64.abs_sub_value_nearest_le hx
  rw [← Binary64.cast_round_nearest hx] at herror
  rw [hz_ofBinary64]
  rcases Nat.le_total x.round (2 ^ 64 - 1) with hle | hge
  · rwa [Nat.min_eq_left hle]
  · rw [Nat.min_eq_right hge]
    have hle : n ≤ 2 ^ 64 - 1 := Nat.le_sub_one_of_lt hn
    generalize 2 ^ 64 - 1 = w at hle hge ⊢
    have hlow : (n : ℚ) ≤ w := by exact_mod_cast hle
    have hhigh : (w : ℚ) ≤ x.round := by exact_mod_cast hge
    rw [abs_sub_comm, abs_of_nonneg (by linarith)]
    linarith [(abs_le.mp herror).1]

theorem round_nearest_max (hx : Binary64.nearest (2 ^ 64 - 1) 1 = some x) : x.round = 2 ^ 64 := by
  have hmax : Binary64.nearest (2 ^ 64 - 1) 1 = some ⟨Binary64.leadingBit, 12⟩ := by decide +kernel
  rw [hmax] at hx
  cases hx
  decide +kernel

theorem hz_ofBinary64_eq_iff (hn : n < 2 ^ 64) (hx : Binary64.nearest n 1 = some x) :
    (ofBinary64 (some x)).hz.toNat = n ↔ Kept n := by
  rw [hz_ofBinary64, Kept, ← Binary64.round_nearest_eq_iff hx]
  constructor
  · omega
  · rintro (hround | rfl)
    · omega
    · rw [round_nearest_max hx]
      rfl

theorem parse_of_isDigits (hs : Text.isDigits s = true) :
    parse s = match Binary64.nearest (Nat.ofDigitChars 10 s.toList 0) 1 with
      | some x => .ok (ofBinary64 (some x))
      | none => .error ⟨s⟩ := by
  obtain ⟨hne, hdigits⟩ := Text.isDigits_iff.mp hs
  exact parse_whole (u := ("", 1)) (.digits hne hdigits) (by simp [suffixes]) rfl
    (List.append_nil _).symm

theorem ofDeclaration_clockReset {d : ClockReset} {clock : Clock} {reset : Reset}
    (hclock : Clock.resolve d.clockDeclaration = .ok clock)
    (hreset : Reset.resolve d.resetDeclaration = .ok reset) (env : Parameter.Environment) :
    Point.ofDeclaration env (.clockReset d) = .ok [.clock clock, .reset reset] := by
  have hc : Point.ofClock d.clockDeclaration = .ok (.clock clock) :=
    map_eq_ok_iff.mpr ⟨clock, hclock, rfl⟩
  have hr : Point.ofReset d.resetDeclaration = .ok (.reset reset) :=
    map_eq_ok_iff.mpr ⟨reset, hreset, rfl⟩
  exact bind_eq_ok_iff.mpr ⟨_, hc, bind_eq_ok_iff.mpr ⟨_, hr, rfl⟩⟩

/-- A digit string is rounded, capped at the largest word, or refused, by its size. -/
theorem readsDigits_of_isDigits (hs : Text.isDigits s = true) :
    ReadsDigits s (Nat.ofDigitChars 10 s.toList 0) := by
  have hparse := parse_of_isDigits hs
  generalize Nat.ofDigitChars 10 s.toList 0 = n at hparse
  have hsome : n < overflow → ∃ x, Binary64.nearest n 1 = some x := fun hlt =>
    Option.ne_none_iff_exists'.mp (mt Binary64.nearest_eq_none_iff.mp hlt.not_ge)
  have hread (hn : n < 2 ^ 64) :
      ∃ f, parse s = .ok f ∧ |(n : ℚ) - f.hz.toNat| ≤ n / 2 ^ 53 ∧ (f.hz.toNat = n ↔ Kept n) := by
    have hword : 2 ^ 64 ≤ overflow := by decide +kernel
    obtain ⟨x, hx⟩ := hsome (hn.trans_le hword)
    rw [hx] at hparse
    exact ⟨_, hparse, abs_sub_hz_ofBinary64_le hn hx, hz_ofBinary64_eq_iff hn hx⟩
  have hclock (name : String) (hz : UInt64) (hn : hz.toNat = n) :
      ∃ f : Frequency, Clock.resolve ⟨name, some (.text s)⟩ = .ok ⟨name, f⟩ ∧
        (f = ⟨hz⟩ ↔ Kept n) := by
    obtain ⟨f, hf, -, hkept⟩ := hread (hn ▸ hz.toNat_lt)
    refine ⟨f, ?_, ?_⟩
    · simp only [Clock.resolve, parse?_eq_some_iff.mpr hf]
    · rw [← hkept, ← hn, UInt64.toNat_inj]
      cases f
      simp
  constructor
  case read => exact hread
  case saturated =>
    intro hle hlt
    obtain ⟨x, hx⟩ := hsome hlt
    have hround : UInt64.size - 1 ≤ x.round :=
      (Nat.sub_le _ _).trans (Binary64.pow_le_round_nearest hle hx)
    rw [hparse, hx]
    simp only [ofBinary64, Nat.min_eq_right hround]
    rfl
  case refused =>
    intro hle
    rw [hparse, Binary64.nearest_eq_none_iff.mpr hle]
  case clock =>
    intro name hz hn
    obtain ⟨f, hf, hkept⟩ := hclock name hz hn
    rw [hf, ← hkept]
    simp [Clock.resolve]
  case clockReset =>
    intro env d hz hn reset hreset
    obtain ⟨f, hf, hkept⟩ := hclock d.clock hz hn
    have htext := ofDeclaration_clockReset (d := { d with rate := some (.text s) }) hf hreset env
    have hnumber : Clock.resolve ⟨d.clock, some (.number hz)⟩ = .ok ⟨d.clock, ⟨hz⟩⟩ := rfl
    have hnumber := ofDeclaration_clockReset (d := { d with rate := some (.number hz) }) hnumber
      hreset env
    rw [htext, hnumber, ← hkept]
    simp

theorem readsDigits_leadingZeros :
    Text.isDigits "0050000000" = true ∧ ReadsDigits "0050000000" 50000000 := by
  have hdigits : Text.isDigits "0050000000" = true := by decide
  have hn : Nat.ofDigitChars 10 "0050000000".toList 0 = 50000000 := by decide +kernel
  have h := readsDigits_of_isDigits hdigits
  rw [hn] at h
  exact ⟨hdigits, h⟩

/-- The least number with 54 significant digits loses the last of them, and `2 ^ 64` is not
refused. -/
theorem digits_not_kept :
    (Text.isDigits "9007199254740993" = true ∧
        Nat.ofDigitChars 10 "9007199254740993".toList 0 = 9007199254740993 ∧
        parse "9007199254740993" = .ok ⟨9007199254740992⟩) ∧
      Clock.resolve ⟨"Clk", some (.text "9007199254740993")⟩ = .ok ⟨"Clk", ⟨9007199254740992⟩⟩ ∧
      Clock.resolve ⟨"Clk", some (.number 9007199254740993)⟩ = .ok ⟨"Clk", ⟨9007199254740993⟩⟩ ∧
      parse "18446744073709551616" = .ok ⟨18446744073709551615⟩ := by
  decide +kernel

end Interconnect.Frequency

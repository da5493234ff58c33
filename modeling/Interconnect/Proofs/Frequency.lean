import Interconnect.Point.Clock
import Interconnect.Proofs.WholeNumber

/-! # Rates and their texts

A rate is shown in the largest unit that leaves few decimals, as the shortest decimal of a
rounded quotient, and read back as a rounded product. Below `2 ^ 51` hertz the two roundings
together stay under half a hertz, so the rate is the same.
-/

namespace Interconnect

open Decimal (Numeral)

theorem Text.trimmed_eq_self {cs : List Char} (h : ∀ c ∈ cs, isBlank c = false) :
    trimmed cs = cs := by
  have hdrop {l : List Char} (hl : ∀ c ∈ l, isBlank c = false) : l.dropWhile isBlank = l := by
    cases l with
    | nil => rfl
    | cons c l => exact List.dropWhile_cons_of_neg (by simp [hl c List.mem_cons_self])
  rw [trimmed, hdrop h, hdrop fun c hc => h c (List.mem_reverse.mp hc), List.reverse_reverse]

namespace Decimal.Numeral

variable {cs : List Char} {d : Decimal} {c : Char}

theorem toNat_mem (h : Numeral cs d) (hc : c ∈ cs) : 46 ≤ c.toNat ∧ c.toNat ≤ 57 := by
  rcases h.mem hc with hdigit | rfl
  · simp only [Char.isDigit, ge_iff_le, Bool.and_eq_true, decide_eq_true_eq,
      UInt32.le_iff_toNat_le] at hdigit
    change 48 ≤ c.toNat ∧ c.toNat ≤ 57 at hdigit
    omega
  · decide

theorem isBlank_eq (h : Numeral cs d) (hc : c ∈ cs) : Text.isBlank c = false := by
  have hrange := h.toNat_mem hc
  simp only [Text.isBlank, Bool.or_eq_false_iff, Bool.and_eq_false_iff, decide_eq_false_iff_not,
    beq_eq_false_iff_ne]
  omega

theorem toLower_eq (h : Numeral cs d) (hc : c ∈ cs) : c.toLower = c := by
  have hrange := h.toNat_mem hc
  rw [Char.toLower, dif_neg]
  intro hupper
  have := UInt32.le_iff_toNat_le.mp hupper.1
  change 65 ≤ c.toNat at this
  omega

end Decimal.Numeral

namespace Frequency

variable {f : Frequency} {cs : List Char} {d : Decimal} {s : String} {u : String × Nat}
  {x : Binary64} {scale : ℕ}

/-- The units as they are shown, each with the hertz it stands for. A number alone counts
hertz. -/
def suffixes : List (String × Nat) :=
  [("GHz", giga), ("MHz", mega), ("KHz", kilo), ("Hz", 1), ("", 1)]

theorem splitUnit_append (h : Numeral cs d) (hu : u ∈ suffixes) :
    splitUnit (cs ++ u.1.toList.map Char.toLower) = (cs, u.2) := by
  have hfree {c : Char} {rest : List Char} (hc : 57 < c.toNat) :
      (c :: rest).isPrefixOf cs.reverse = false := by
    cases hrev : cs.reverse with
    | nil => rfl
    | cons c' rest' =>
      have hmem : c' ∈ cs := List.mem_reverse.mp (hrev ▸ List.mem_cons_self)
      have hne : c ≠ c' := by
        rintro rfl
        have := h.toNat_mem hmem
        omega
      simp [List.isPrefixOf, hne]
  simp only [suffixes, List.mem_cons, List.not_mem_nil, or_false] at hu
  rcases hu with rfl | rfl | rfl | rfl | rfl <;>
    simp [splitUnit, units, List.find?, List.isSuffixOf, List.isPrefixOf, hfree,
      ← String.length_toList]

/-- A numeral with a unit behind it is the product of the two, rounded twice. -/
theorem parse_eq (h : Numeral cs d) (hu : u ∈ suffixes) (hs : s.toList = cs ++ u.1.toList) :
    parse s = match Binary64.ofDecimal d with
      | some x => .ok (ofBinary64 (x.scaleUp u.2))
      | none => .error ⟨s⟩ := by
  have hunit : ∀ c ∈ u.1.toList, Text.isBlank c = false := by
    simp only [suffixes, List.mem_cons, List.not_mem_nil, or_false] at hu
    rcases hu with rfl | rfl | rfl | rfl | rfl <;> simp [Text.isBlank]
  have hblank : ∀ c ∈ s.toList, Text.isBlank c = false := by
    intro c hc
    rw [hs] at hc
    exact (List.mem_append.mp hc).elim h.isBlank_eq (hunit c)
  have hlower : s.toList.map Char.toLower = cs ++ u.1.toList.map Char.toLower := by
    rw [hs, List.map_append, List.map_congr_left fun _ => h.toLower_eq, List.map_id']
  have htrim : Text.trim s = s := by
    rw [Text.trim, Text.trimmed_eq_self hblank, String.ofList_toList]
  have hparse : parse? s = (Binary64.ofDecimal d).map fun x => ofBinary64 (x.scaleUp u.2) := by
    rw [parse?, Text.trimmed_eq_self hblank, hlower, splitUnit_append h hu]
    simp only [Text.trimmed_eq_self fun _ => h.isBlank_eq, h.parse?_eq]
    cases Binary64.ofDecimal d <;> rfl
  rw [parse, hparse, htrim]
  cases Binary64.ofDecimal d <;> rfl

theorem ofBinary64_eq (h : x.round = f.hz.toNat) : ofBinary64 (some x) = f := by
  have hword : f.hz.toNat ≤ UInt64.size - 1 := by
    have := f.hz.toNat_lt_size
    omega
  rw [ofBinary64, h, Nat.min_eq_left hword, UInt64.ofNat_toNat]

/-- A quotient that was rounded once gives the rate again when it is multiplied. -/
theorem ofBinary64_scaleUp (hpos : 0 < f.hz.toNat) (hlt : f.hz.toNat < 2 ^ 51) (hscale : 0 < scale)
    (h : |(f.hz.toNat : ℚ) / scale - x.value| ≤ f.hz.toNat / scale / 2 ^ 53) :
    ofBinary64 (x.scaleUp scale) = f := by
  have hk : (0 : ℚ) < scale := by exact_mod_cast hscale
  have hone : (1 : ℚ) ≤ f.hz.toNat := by exact_mod_cast hpos
  have hmax : (f.hz.toNat : ℚ) + 1 ≤ 2 ^ 51 := by exact_mod_cast hlt
  have hquotient : |(f.hz.toNat : ℚ) - x.value * scale| ≤ f.hz.toNat / 2 ^ 53 :=
    calc |(f.hz.toNat : ℚ) - x.value * scale|
        = |f.hz.toNat / scale - x.value| * scale := by
          rw [← abs_of_pos hk, ← abs_mul, abs_of_pos hk, sub_mul, div_mul_cancel₀ _ hk.ne']
      _ ≤ f.hz.toNat / scale / 2 ^ 53 * scale := by gcongr
      _ = f.hz.toNat / 2 ^ 53 := by field_simp
  have hnear := abs_le.mp hquotient
  obtain ⟨y, hy, hproduct⟩ : ∃ y, x.scaleUp scale = some y ∧ _ :=
    Binary64.exists_scaleUp (Binary64.inRange_of_le (by linarith) (by linarith))
  rw [hy]
  apply ofBinary64_eq
  apply Binary64.round_eq
  have hnear' := abs_le.mp hproduct
  rw [abs_lt]
  constructor <;> linarith

theorem exists_inUnits (hscale : 0 < scale) (hle : scale ≤ f.hz.toNat) (hlt : f.hz.toNat < 2 ^ 51) :
    ∃ x, f.inUnits scale = some x ∧ x.Canonical ∧
      |(f.hz.toNat : ℚ) / scale - x.value| ≤ f.hz.toNat / scale / 2 ^ 53 := by
  have hk : (1 : ℚ) ≤ scale := by exact_mod_cast hscale
  have hone : (1 : ℚ) ≤ f.hz.toNat / scale := by
    rw [one_le_div (by linarith)]
    exact_mod_cast hle
  have hmax : (f.hz.toNat : ℚ) / scale < 2 ^ 64 := by
    have : (f.hz.toNat : ℚ) < 2 ^ 51 := by exact_mod_cast hlt
    have := div_le_self (Nat.cast_nonneg f.hz.toNat : (0 : ℚ) ≤ _) hk
    linarith
  obtain ⟨x, hx, hvalue⟩ := Binary64.exists_nearest_of_lt (n := f.hz.toNat) (by omega)
  rw [← hvalue] at hone hmax ⊢
  obtain ⟨y, hy, h⟩ := Binary64.exists_scaleDown hscale (Binary64.inRange_of_le (by linarith) hmax)
  exact ⟨y, by simp only [inUnits, hx, hy], h⟩

theorem parse_inUnits (hu : u ∈ suffixes) (hle : u.2 ≤ f.hz.toNat) (hlt : f.hz.toNat < 2 ^ 51) :
    parse (Binary64.render (f.inUnits u.2) ++ u.1) = .ok f := by
  have hscale : 0 < u.2 := (by decide : ∀ u ∈ suffixes, 0 < u.2) u hu
  obtain ⟨x, hx, hcanonical, herror⟩ := exists_inUnits hscale hle hlt
  have hholds := hcanonical.holds_shortest
  obtain ⟨d, hnumeral, hvalue⟩ := Decimal.exists_numeral_positional
    (Decimal.value_pos_iff.mp (hholds.pos hcanonical))
  have hd : Binary64.ofDecimal d = some x :=
    Binary64.ofDecimal_of_holds hcanonical (hvalue ▸ hholds)
  have hs : (Binary64.render (f.inUnits u.2) ++ u.1).toList =
      x.shortest.positional.toList ++ u.1.toList := by
    rw [hx, Binary64.render, String.toList_append]
  rw [parse_eq hnumeral hu hs, hd]
  exact congrArg Except.ok (ofBinary64_scaleUp (by omega) hlt hscale herror)

theorem parse_whole {n : ℕ} (h : Numeral cs ⟨n, 0⟩) (hu : u ∈ suffixes) (hone : u.2 = 1)
    (hs : s.toList = cs ++ u.1.toList) :
    parse s = match Binary64.nearest n 1 with
      | some x => .ok (ofBinary64 (some x))
      | none => .error ⟨s⟩ := by
  rw [parse_eq h hu hs, Binary64.ofDecimal_natCast, hone]
  cases hx : Binary64.nearest n 1 with
  | none => rfl
  | some x => exact congrArg (Except.ok ∘ ofBinary64) (Binary64.scaleUp_one_of_nearest hx)

theorem parse_toString (hlt : f.hz.toNat < 2 ^ 51) :
    parse (toString f.hz.toNat ++ "Hz") = .ok f := by
  obtain ⟨x, hx, hvalue⟩ := Binary64.exists_nearest_of_lt (n := f.hz.toNat) (by omega)
  have hs : (toString f.hz.toNat ++ "Hz").toList = Nat.toDigits 10 f.hz.toNat ++ "Hz".toList := by
    rw [String.toList_append, Nat.toString_eq_ofList_toDigits, String.toList_ofList]
  have hround : x.round = f.hz.toNat := Binary64.round_eq (by rw [hvalue, sub_self]; norm_num)
  rw [parse_whole (u := ("Hz", 1)) (Decimal.numeral_toDigits _) (by simp [suffixes]) rfl hs, hx]
  exact congrArg Except.ok (ofBinary64_eq hround)

theorem parse?_eq_some_iff : parse? s = some f ↔ parse s = .ok f := by
  rw [parse]
  cases parse? s <;> simp

/-- Every branch of `render` writes a text that is read as the same rate. -/
theorem parse_render (f : Frequency) (hlt : f.hz.toNat < 2 ^ 51) :
    parse f.render = .ok f ∧
      ∀ name, Clock.resolve ⟨name, some (.text f.render)⟩ = .ok ⟨name, f⟩ := by
  have hparse : parse f.render = .ok f := by
    simp only [render]
    split_ifs with hgiga hmega hkilo
    · exact parse_inUnits (u := ("GHz", giga)) (by simp [suffixes]) hgiga.1 hlt
    · exact parse_inUnits (u := ("MHz", mega)) (by simp [suffixes]) hmega.1 hlt
    · exact parse_inUnits (u := ("KHz", kilo)) (by simp [suffixes]) hkilo hlt
    · exact parse_toString hlt
  refine ⟨hparse, fun name => ?_⟩
  simp only [Clock.resolve, parse?_eq_some_iff.mpr hparse]

/-- The largest rate below the bound has decimals in kilohertz. -/
theorem parse_render_largest :
    let f : Frequency := ⟨2 ^ 51 - 1⟩
    f.hz.toNat < 2 ^ 51 ∧ f.render = "2251799813685.247KHz" ∧ parse f.render = .ok f ∧
      Clock.resolve ⟨"Clk", some (.text f.render)⟩ = .ok ⟨"Clk", f⟩ := by
  have h := parse_render ⟨2 ^ 51 - 1⟩ (by decide)
  exact ⟨by decide, by decide +kernel, h.1, h.2 "Clk"⟩

end Frequency

end Interconnect

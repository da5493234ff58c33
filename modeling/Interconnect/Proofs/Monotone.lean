import Interconnect.Proofs.Rebuild
import Interconnect.Proofs.Validity.Point

/-! # Tables that can be read alike

A table may change without harm to what is resolved against it. Where numbers and flags keep
their values, and a handshake can be read whenever it could be before, every valid blueprint
stays valid and declarations that resolved before resolve again.
-/

namespace Interconnect

open Endpoint (Handshake)
open Parameter (Table)
open Point (Declaration)

/-- Every field that can be read from the table can be read from the later one, the numbers
and flags with the same value. -/
structure Parameter.Table.KeepsReadable (t t' : Table) : Prop where
  natural : ∀ name n, t.lookup name = some (.natural n) → t'.lookup name = some (.natural n)
  boolean : ∀ name b, t.lookup name = some (.boolean b) → t'.lookup name = some (.boolean b)
  handshake : ∀ name, Handshake.Valid t name → Handshake.Valid t' name

section Monotone

variable {t t' : Table} {raw : Scalar}

namespace Scalar

theorem Counts.mono {n : Nat} (hc : raw.Counts t n) (h : t.KeepsReadable t') :
    raw.Counts t' n := by
  cases hc with
  | number n => exact .number n
  | digits hne hd hlt => exact .digits hne hd hlt
  | parameter hs hp => exact .parameter hs (h.natural _ _ hp)

theorem CountsOr.mono {default n : Nat} {written : Option Scalar}
    (hc : CountsOr t default written n) (h : t.KeepsReadable t') :
    CountsOr t' default written n := by
  cases hc with
  | absent => exact .absent
  | written hc => exact .written (hc.mono h)

theorem Switches.mono {b : Bool} (hs : raw.Switches t b) (h : t.KeepsReadable t') :
    raw.Switches t' b := by
  cases hs with
  | flag b => exact .flag b
  | zero => exact .zero
  | one => exact .one
  | zeroText => exact .zeroText
  | oneText => exact .oneText
  | parameter hs hp => exact .parameter hs (h.boolean _ _ hp)

theorem IsNumber.mono (hn : raw.IsNumber t) (h : t.KeepsReadable t') : raw.IsNumber t' :=
  hn.imp fun _ hc => hc.mono h

theorem IsFlag.mono (hf : raw.IsFlag t) (h : t.KeepsReadable t') : raw.IsFlag t' :=
  hf.imp fun _ hs => hs.mono h

end Scalar

namespace Endpoint

theorem DataDeclaration.WidthsValid.mono {d : DataDeclaration} (hd : d.WidthsValid t)
    (h : t.KeepsReadable t') : d.WidthsValid t' := by
  obtain ⟨width, hwidth, hpos, hsymbol⟩ := hd
  refine ⟨width, hwidth.mono h, hpos, fun raw hraw => ?_⟩
  obtain ⟨symbolWidth, hcounts, hrest⟩ := hsymbol raw hraw
  exact ⟨symbolWidth, hcounts.mono h, hrest⟩

theorem PacketDeclaration.Valid.mono {d : PacketDeclaration} (hd : d.Valid t)
    (h : t.KeepsReadable t') : d.Valid t' where
  usePackets := hd.usePackets.mono h
  useEmpty raw hraw := (hd.useEmpty raw hraw).mono h

theorem ChannelDeclaration.Valid.mono {d : ChannelDeclaration} (hd : d.Valid t)
    (h : t.KeepsReadable t') : d.Valid t' where
  useChannel := hd.useChannel.imp fun _ hu => ⟨hu.1.mono h, hu.2⟩
  maxChannel raw hraw := (hd.maxChannel raw hraw).mono h

theorem Declaration.Valid.mono {d : Declaration} (hd : d.Valid t) (h : t.KeepsReadable t') :
    d.Valid t' where
  widths := hd.widths.mono h
  handshake := h.handshake _ hd.handshake
  packets p hp := (hd.packets p hp).mono h
  channel c hc := (hd.channel c hc).mono h
  error e he := (hd.error e he).mono h

end Endpoint

namespace MemoryMapped

theorem BurstDeclaration.Valid.mono {d : BurstDeclaration} (hd : d.Valid t)
    (h : t.KeepsReadable t') : d.Valid t' where
  maxCount := hd.maxCount.mono h
  width raw hraw := (hd.width raw hraw).mono h
  onBoundariesOnly raw hraw := (hd.onBoundariesOnly raw hraw).mono h
  lineWrap raw hraw := (hd.lineWrap raw hraw).mono h

theorem WriteDeclaration.Valid.mono {dataWidth : Nat} {d : WriteDeclaration}
    (hd : d.Valid t dataWidth) (h : t.KeepsReadable t') : d.Valid t' dataWidth where
  symbolWidth := hd.symbolWidth.imp fun _ hs => ⟨hs.1.mono h, hs.2⟩
  waitTime raw hraw := (hd.waitTime raw hraw).mono h
  holdTime raw hraw := (hd.holdTime raw hraw).mono h

theorem ReadDeclaration.Valid.mono {d : ReadDeclaration} (hd : d.Valid t)
    (h : t.KeepsReadable t') : d.Valid t' where
  maxPending raw hraw := (hd.maxPending raw hraw).mono h
  waitTime raw hraw := (hd.waitTime raw hraw).mono h
  latency raw hraw := (hd.latency raw hraw).mono h

theorem Declaration.Valid.mono {role : Role} {d : Declaration} (hd : d.Valid t role)
    (h : t.KeepsReadable t') : d.Valid t' role where
  address a ha := ⟨(hd.address a ha).name, (hd.address a ha).width.mono h⟩
  burst b hb := (hd.burst b hb).mono h
  widths := hd.widths.imp fun _ ⟨hwidth, hpos, hwrite⟩ =>
    ⟨hwidth.mono h, hpos, fun w hw => (hwrite w hw).mono h⟩
  read r hr := (hd.read r hr).mono h
  setupTime raw hraw := (hd.setupTime raw hraw).mono h
  bridging hrole raw hraw := (hd.bridging hrole raw hraw).mono h

end MemoryMapped

theorem Conduit.Declaration.Valid.mono {d : Conduit.Declaration} (hd : d.Valid t)
    (h : t.KeepsReadable t') : d.Valid t' := fun s hs =>
  ⟨(hd s hs).direction, (hd s hs).width.mono h⟩

theorem Blueprint.Valid.mono {b : Blueprint} (hb : b.Valid t) (h : t.KeepsReadable t') :
    b.Valid t' := by
  cases b with
  | clock d => exact hb
  | reset d => exact hb
  | endpoint direction d => exact Endpoint.Declaration.Valid.mono hb h
  | memoryMapped role d => exact MemoryMapped.Declaration.Valid.mono hb h
  | conduit d => exact Conduit.Declaration.Valid.mono hb h

end Monotone

/-- Declarations with new names resolve exactly when all of their blueprints are valid. -/
theorem Registry.exists_ofDeclarations_iff {t : Table} {ds : List Declaration}
    (hn : (ds.flatMap Declaration.names).Nodup) :
    (∃ r, ofDeclarations t.environment ds = .ok r) ↔
      ∀ b ∈ ds.flatMap Declaration.blueprints, b.Valid t := by
  constructor
  · rintro ⟨r, hr⟩ b hb
    obtain ⟨p, hp, -⟩ := exists_mem_entries_of_ofDeclarations hr hb
    exact Blueprint.exists_resolve_iff.mp ⟨p, Blueprint.resolve_eq_ok_iff.mpr hp⟩
  · intro h
    obtain ⟨ps, hps⟩ := (exists_forall₂_iff fun b => Blueprint.exists_resolve_iff).mpr h
    rw [ofDeclarations_eq hn, Blueprint.mapM_entry, mapM_eq_ok_iff.mpr hps]
    exact ⟨_, rfl⟩

theorem Registry.exists_ofDeclarations_of_keepsReadable {t t' : Table} {ds : List Declaration}
    {r : Registry} (hr : ofDeclarations t.environment ds = .ok r) (h : t.KeepsReadable t') :
    ∃ r', ofDeclarations t'.environment ds = .ok r' := by
  have hn : (ds.flatMap Declaration.names).Nodup := (built_of_ofDeclarations hr).nodup
  have hvalid := (exists_ofDeclarations_iff hn).mp ⟨r, hr⟩
  exact (exists_ofDeclarations_iff hn).mpr fun b hb => (hvalid b hb).mono h

end Interconnect

import Interconnect.Proofs.Validity.Point

/-! # Numbers and their digits

A number in a field can be written as a number or as its decimal digits. Both stand for the
same, whatever the field counts or switches, and an error repeats them in the same words. So
declarations that differ only in this resolve to the same record or fail with the same error.
-/

namespace Interconnect

open Parameter (Environment)

namespace Text

theorem toList_toString (n : UInt64) : (toString n).toList = Nat.toDigits 10 n.toNat := by
  change (toString n.toNat).toList = _
  rw [Nat.toString_eq_ofList_toDigits, String.toList_ofList]

theorem isDigits_toString (n : UInt64) : isDigits (toString n) = true := by
  rw [isDigits_iff, toList_toString]
  exact ⟨Nat.toDigits_ne_nil, fun _ => Nat.isDigit_of_mem_toDigits (by decide) (by decide)⟩

theorem number?_toString (n : UInt64) : number? (toString n) = some n := by
  rw [number?_eq_some_iff, toList_toString, Nat.ofDigitChars_ten_toDigits]

theorem isSymbol_toString (n : UInt64) : isSymbol (toString n) = false := by
  refine Bool.eq_false_iff.mpr fun h => ?_
  have hdigits := isDigits_eq_false_of_beginsName (isSymbol_iff.mp h)
  rw [isDigits_toString] at hdigits
  cases hdigits

theorem toString_inj {m n : UInt64} : toString m = toString n ↔ m = n := by
  refine ⟨fun h => ?_, congrArg toString⟩
  have hnumber := number?_toString m
  rw [h, number?_toString] at hnumber
  exact (Option.some.inj hnumber).symm

end Text

/-- The second scalar is the first one, or a number written as its digits. -/
inductive Scalar.Respelled : Scalar → Scalar → Prop where
  | same (raw : Scalar) : Respelled raw raw
  | digits (n : UInt64) : Respelled (.number n) (.text (toString n))

namespace Scalar.Respelled

variable {raw raw' : Scalar}

theorem toString_eq (h : Respelled raw raw') : toString raw = toString raw' := by
  cases h <;> rfl

theorem render_eq (h : Respelled raw raw') : raw.render = raw'.render := h.toString_eq

theorem ofNumber_eq (h : Respelled raw raw') :
    Reference.ofNumber raw = Reference.ofNumber raw' := by
  cases h with
  | same => rfl
  | digits n => simp [Reference.ofNumber, Text.isDigits_toString, Text.number?_toString]

theorem ofFlag_eq (h : Respelled raw raw') : Reference.ofFlag raw = Reference.ofFlag raw' := by
  cases h with
  | same => rfl
  | digits n =>
    have hzero : toString n = "0" ↔ n = 0 := Text.toString_inj (n := 0)
    have hone : toString n = "1" ↔ n = 1 := Text.toString_inj (n := 1)
    simp only [Reference.ofFlag, hzero, hone, Text.isSymbol_toString, Bool.false_eq_true,
      if_false]

end Scalar.Respelled

section Fields

open Scalar (Respelled)

variable {env : Environment} {point field : String}

namespace Resolved

theorem natural?_respelled {raw raw' : Scalar} (h : Respelled raw raw') :
    natural? env point field raw = natural? env point field raw' := by
  rw [natural?, natural?, h.ofNumber_eq]

theorem flag?_respelled {raw raw' : Scalar} (h : Respelled raw raw') :
    flag? env point field raw = flag? env point field raw' := by
  rw [flag?, flag?, h.ofFlag_eq]

theorem number_respelled {raw raw' : Scalar} (h : Respelled raw raw') :
    number env point field raw = number env point field raw' := by
  rw [number, number, natural?_respelled h, h.render_eq]

theorem natural_respelled {raw raw' : Option Scalar} (h : Option.Rel Respelled raw raw')
    (default : UInt64) :
    natural env point field raw default = natural env point field raw' default := by
  cases h with
  | none => rfl
  | some h => exact number_respelled h

theorem flag_respelled {raw raw' : Option Scalar} (h : Option.Rel Respelled raw raw')
    (default : Bool) :
    flag env point field raw default = flag env point field raw' default := by
  cases h with
  | none => rfl
  | some h => rw [flag, flag, flag?_respelled h, h.render_eq]

end Resolved

end Fields

namespace Endpoint

open Scalar (Respelled)

variable {env : Environment} {point base : String}

/-- The second declaration writes some numbers of the first one as their digits. -/
inductive DataDeclaration.Respelled : DataDeclaration → DataDeclaration → Prop where
  | intro {name : String} {width width' : Scalar} {symbolWidth symbolWidth' : Option Scalar}
      {handshake : Option String} : width.Respelled width' →
      Option.Rel Scalar.Respelled symbolWidth symbolWidth' →
      Respelled ⟨name, width, symbolWidth, handshake⟩ ⟨name, width', symbolWidth', handshake⟩

inductive PacketDeclaration.Respelled : PacketDeclaration → PacketDeclaration → Prop where
  | intro {usePackets usePackets' : Scalar} {useEmpty useEmpty' : Option Scalar} :
      usePackets.Respelled usePackets' → Option.Rel Scalar.Respelled useEmpty useEmpty' →
      Respelled ⟨usePackets, useEmpty⟩ ⟨usePackets', useEmpty'⟩

inductive ChannelDeclaration.Respelled : ChannelDeclaration → ChannelDeclaration → Prop where
  | intro {useChannel useChannel' : Scalar} {maxChannel maxChannel' : Option Scalar} :
      useChannel.Respelled useChannel' → Option.Rel Scalar.Respelled maxChannel maxChannel' →
      Respelled ⟨useChannel, maxChannel⟩ ⟨useChannel', maxChannel'⟩

inductive ErrorDeclaration.Respelled : ErrorDeclaration → ErrorDeclaration → Prop where
  | intro {width width' : Scalar} {descriptors : List String} : width.Respelled width' →
      Respelled ⟨width, descriptors⟩ ⟨width', descriptors⟩

inductive Declaration.Respelled : Declaration → Declaration → Prop where
  | intro {name clock reset : String} {data data' : DataDeclaration}
      {packets packets' : Option PacketDeclaration} {channel channel' : Option ChannelDeclaration}
      {error error' : Option ErrorDeclaration} : data.Respelled data' →
      Option.Rel PacketDeclaration.Respelled packets packets' →
      Option.Rel ChannelDeclaration.Respelled channel channel' →
      Option.Rel ErrorDeclaration.Respelled error error' →
      Respelled ⟨name, clock, reset, data, packets, channel, error⟩
        ⟨name, clock, reset, data', packets', channel', error'⟩

theorem resolveSymbolWidth_respelled {dataWidth : Resolved UInt64} {raw raw' : Option Scalar}
    (h : Option.Rel Scalar.Respelled raw raw') :
    resolveSymbolWidth env point dataWidth raw = resolveSymbolWidth env point dataWidth raw' := by
  cases h with
  | none => rfl
  | some h => rw [resolveSymbolWidth, resolveSymbolWidth, Resolved.number_respelled h]

theorem Packets.flag_respelled {label field : String} {raw raw' : Scalar}
    (h : raw.Respelled raw') :
    Packets.flag env point label field raw = Packets.flag env point label field raw' := by
  rw [Packets.flag, Packets.flag, Resolved.flag?_respelled h, h.toString_eq]

theorem Packets.resolve_respelled {symbols : UInt64} {d d' : PacketDeclaration}
    (h : d.Respelled d') :
    Packets.resolve env point base symbols d = Packets.resolve env point base symbols d' := by
  obtain ⟨husePackets, huseEmpty⟩ := h
  simp only [Packets.resolve, Packets.flag_respelled husePackets]
  cases huseEmpty with
  | none => rfl
  | some h => simp only [Packets.flag_respelled h]

theorem Channel.resolve_respelled {d d' : ChannelDeclaration} (h : d.Respelled d') :
    Channel.resolve env point base d = Channel.resolve env point base d' := by
  obtain ⟨huseChannel, hmaxChannel⟩ := h
  simp only [Channel.resolve, Resolved.flag?_respelled huseChannel, huseChannel.toString_eq]
  cases hmaxChannel with
  | none => rfl
  | some h => simp only [Resolved.natural?_respelled h, h.toString_eq]

theorem ErrorSignal.resolve_respelled {d d' : ErrorDeclaration} (h : d.Respelled d') :
    ErrorSignal.resolve env point base d = ErrorSignal.resolve env point base d' := by
  obtain ⟨hwidth⟩ := h
  rw [ErrorSignal.resolve, ErrorSignal.resolve, Resolved.number_respelled hwidth]

theorem optionally_eq_of_rel {δ ρ : Type} {R : δ → δ → Prop} {resolve : δ → Except Point.Error ρ}
    {d d' : Option δ} (h : Option.Rel R d d') (hresolve : ∀ d d', R d d' → resolve d = resolve d') :
    optionally resolve d = optionally resolve d' := by
  cases h with
  | none => rfl
  | some h => rw [optionally, optionally, hresolve _ _ h]

theorem resolve_respelled {direction : Direction} {d d' : Declaration} (h : d.Respelled d') :
    resolve env direction d = resolve env direction d' := by
  obtain ⟨⟨hwidth, hsymbolWidth⟩, hpackets, hchannel, herror⟩ := h
  simp only [resolve, Resolved.number_respelled hwidth, resolveSymbolWidth_respelled hsymbolWidth,
    optionally_eq_of_rel hpackets fun _ _ => Packets.resolve_respelled,
    optionally_eq_of_rel hchannel fun _ _ => Channel.resolve_respelled,
    optionally_eq_of_rel herror fun _ _ => ErrorSignal.resolve_respelled]

theorem symbolicFields_respelled {d d' : Declaration} (h : d.Respelled d') (e : Endpoint) :
    symbolicFields d e = symbolicFields d' e := by
  obtain ⟨⟨-, hsymbolWidth⟩, -, -, -⟩ := h
  cases hsymbolWidth <;> rfl

end Endpoint

namespace MemoryMapped

open Endpoint (optionally_eq_of_rel)

variable {env : Environment} {point : String}

inductive AddressDeclaration.Respelled : AddressDeclaration → AddressDeclaration → Prop where
  | intro {name : String} {width width' : Scalar} : width.Respelled width' →
      Respelled ⟨name, width⟩ ⟨name, width'⟩

inductive BurstDeclaration.Respelled : BurstDeclaration → BurstDeclaration → Prop where
  | intro {name : String} {maxCount maxCount' : Scalar}
      {width width' onBoundariesOnly onBoundariesOnly' lineWrap lineWrap' : Option Scalar} :
      maxCount.Respelled maxCount' → Option.Rel Scalar.Respelled width width' →
      Option.Rel Scalar.Respelled onBoundariesOnly onBoundariesOnly' →
      Option.Rel Scalar.Respelled lineWrap lineWrap' →
      Respelled ⟨name, maxCount, width, onBoundariesOnly, lineWrap⟩
        ⟨name, maxCount', width', onBoundariesOnly', lineWrap'⟩

inductive WriteDeclaration.Respelled : WriteDeclaration → WriteDeclaration → Prop where
  | intro {data strobe : String} {byteEnable : Option String}
      {symbolWidth symbolWidth' waitTime waitTime' holdTime holdTime' : Option Scalar} :
      Option.Rel Scalar.Respelled symbolWidth symbolWidth' →
      Option.Rel Scalar.Respelled waitTime waitTime' →
      Option.Rel Scalar.Respelled holdTime holdTime' →
      Respelled ⟨data, strobe, symbolWidth, byteEnable, waitTime, holdTime⟩
        ⟨data, strobe, symbolWidth', byteEnable, waitTime', holdTime'⟩

inductive ReadDeclaration.Respelled : ReadDeclaration → ReadDeclaration → Prop where
  | intro {strobe data : String}
      {maxPending maxPending' waitTime waitTime' latency latency' : Option Scalar} :
      Option.Rel Scalar.Respelled maxPending maxPending' →
      Option.Rel Scalar.Respelled waitTime waitTime' →
      Option.Rel Scalar.Respelled latency latency' →
      Respelled ⟨strobe, data, maxPending, waitTime, latency⟩
        ⟨strobe, data, maxPending', waitTime', latency'⟩

inductive Declaration.Respelled : Declaration → Declaration → Prop where
  | intro {name clock reset : String} {waitRequest readDataValid : Option String}
      {address address' : Option AddressDeclaration} {burst burst' : Option BurstDeclaration}
      {write write' : Option WriteDeclaration} {read read' : Option ReadDeclaration}
      {dataWidth dataWidth' setupTime setupTime' bridgesToMaster bridgesToMaster' :
        Option Scalar} :
      Option.Rel AddressDeclaration.Respelled address address' →
      Option.Rel BurstDeclaration.Respelled burst burst' →
      Option.Rel Scalar.Respelled dataWidth dataWidth' →
      Option.Rel WriteDeclaration.Respelled write write' →
      Option.Rel ReadDeclaration.Respelled read read' →
      Option.Rel Scalar.Respelled setupTime setupTime' →
      Option.Rel Scalar.Respelled bridgesToMaster bridgesToMaster' →
      Respelled
        ⟨name, clock, reset, address, burst, dataWidth, write, read, waitRequest, readDataValid,
          setupTime, bridgesToMaster⟩
        ⟨name, clock, reset, address', burst', dataWidth', write', read', waitRequest,
          readDataValid, setupTime', bridgesToMaster'⟩

theorem Address.resolve_respelled {d d' : AddressDeclaration} (h : d.Respelled d') :
    Address.resolve env point d = Address.resolve env point d' := by
  obtain ⟨hwidth⟩ := h
  simp only [Address.resolve, Resolved.natural?_respelled hwidth, hwidth.toString_eq]

theorem Burst.resolve_respelled {d d' : BurstDeclaration} (h : d.Respelled d') :
    Burst.resolve env point d = Burst.resolve env point d' := by
  obtain ⟨hmaxCount, hwidth, honBoundariesOnly, hlineWrap⟩ := h
  simp only [Burst.resolve, Resolved.number_respelled hmaxCount,
    Resolved.natural_respelled hwidth, Resolved.flag_respelled honBoundariesOnly,
    Resolved.flag_respelled hlineWrap]

theorem WriteSide.resolve_respelled {dataWidth : UInt64} {d d' : WriteDeclaration}
    (h : d.Respelled d') :
    WriteSide.resolve env point dataWidth d = WriteSide.resolve env point dataWidth d' := by
  obtain ⟨hsymbolWidth, hwaitTime, hholdTime⟩ := h
  simp only [WriteSide.resolve, Resolved.natural_respelled hsymbolWidth,
    Resolved.natural_respelled hwaitTime, Resolved.natural_respelled hholdTime]

theorem ReadSide.resolve_respelled {d d' : ReadDeclaration} (h : d.Respelled d') :
    ReadSide.resolve env point d = ReadSide.resolve env point d' := by
  obtain ⟨hmaxPending, hwaitTime, hlatency⟩ := h
  simp only [ReadSide.resolve, Resolved.natural_respelled hmaxPending,
    Resolved.natural_respelled hwaitTime, Resolved.natural_respelled hlatency]

theorem bridging_respelled {raw raw' : Option Scalar} (h : Option.Rel Scalar.Respelled raw raw')
    (role : Role) : bridging env point raw role = bridging env point raw' role := by
  cases role with
  | slave => rw [bridging, bridging, Resolved.flag_respelled h]
  | master => rfl

theorem resolve_respelled {role : Role} {d d' : Declaration} (h : d.Respelled d') :
    resolve env role d = resolve env role d' := by
  obtain ⟨haddress, hburst, hdataWidth, hwrite, hread, hsetupTime, hbridges⟩ := h
  simp only [resolve, optionally_eq_of_rel haddress fun _ _ => Address.resolve_respelled,
    optionally_eq_of_rel hburst fun _ _ => Burst.resolve_respelled,
    Resolved.natural_respelled hdataWidth,
    optionally_eq_of_rel hwrite fun _ _ => WriteSide.resolve_respelled,
    optionally_eq_of_rel hread fun _ _ => ReadSide.resolve_respelled,
    Resolved.natural_respelled hsetupTime, bridging_respelled hbridges]

end MemoryMapped

namespace Conduit

variable {env : Environment} {point : String}

inductive SignalDeclaration.Respelled : SignalDeclaration → SignalDeclaration → Prop where
  | intro {name direction : String} {width width' : Scalar} : width.Respelled width' →
      Respelled ⟨name, direction, width⟩ ⟨name, direction, width'⟩

inductive Declaration.Respelled : Declaration → Declaration → Prop where
  | intro {name : String} {clock reset : Option String}
      {signals signals' : List SignalDeclaration} :
      List.Forall₂ SignalDeclaration.Respelled signals signals' →
      Respelled ⟨name, clock, reset, signals⟩ ⟨name, clock, reset, signals'⟩

theorem ConduitSignal.resolve_respelled {d d' : SignalDeclaration} (h : d.Respelled d') :
    ConduitSignal.resolve env point d = ConduitSignal.resolve env point d' := by
  obtain ⟨hwidth⟩ := h
  simp only [ConduitSignal.resolve, Resolved.natural?_respelled hwidth, hwidth.render_eq]

theorem resolve_respelled {d d' : Declaration} (h : d.Respelled d') :
    resolve env d = resolve env d' := by
  obtain ⟨hsignals⟩ := h
  rw [resolve, resolve,
    mapM_eq_mapM_of_forall₂ (hsignals.imp fun _ _ => ConduitSignal.resolve_respelled)]

end Conduit

namespace Point

/-- Some numbers in the fields of an endpoint, a memory-mapped interface or a conduit are
written as their digits. -/
inductive Declaration.Respelled : Declaration → Declaration → Prop where
  | sink {d d' : Endpoint.Declaration} : d.Respelled d' → Respelled (.sink d) (.sink d')
  | source {d d' : Endpoint.Declaration} : d.Respelled d' → Respelled (.source d) (.source d')
  | master {d d' : MemoryMapped.Declaration} : d.Respelled d' →
      Respelled (.master d) (.master d')
  | slave {d d' : MemoryMapped.Declaration} : d.Respelled d' → Respelled (.slave d) (.slave d')
  | conduit {d d' : Conduit.Declaration} : d.Respelled d' → Respelled (.conduit d) (.conduit d')

end Point

end Interconnect

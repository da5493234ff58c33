import Interconnect.Point.Endpoint
import Interconnect.Proofs.Field

/-! # How endpoints resolve

The rules by which the parts of an endpoint resolve under the parameters, one for each
way to succeed. Every rule reads the declaration through the references of its fields.
Resolution succeeds exactly by these rules. A declaration lists its symbolic fields and
the origins of its resolved fields before anything is resolved; the record has the same
symbolic fields, and resolution reads no other parameter.
-/

namespace Interconnect.Endpoint

open Parameter (Environment Reading Value)
open Reference (ofNumber ofFlag)

variable {env env' : Environment} {point base : String} {direction : Direction}

/-- The width of a symbol is declared, or that of the data. -/
inductive SymbolWidth (env : Environment) (dataWidth : Resolved UInt64) :
    Option Scalar → Resolved UInt64 → Prop where
  | declared {raw : Scalar} {r : Resolved UInt64} :
      (ofNumber raw).Denotes env Value.natural? r → r.value ≠ 0 →
      SymbolWidth env dataWidth (some raw) r
  | absent : SymbolWidth env dataWidth none dataWidth

/-- A handshake is standard by default, a mode by its name, the mode that a text parameter
holds, or pending as long as a derived parameter is not supplied. -/
inductive Handshake.Resolves (env : Environment) (base : String) :
    Option String → Handshake → Prop where
  | absent : Resolves env base none (ofMode base (some .standard) none)
  | literal {name : String} {mode : Mode} : Mode.ofName? name = some mode →
      Resolves env base (some name) (ofMode base (some mode) none)
  | symbol {name : String} {r : Reading} {mode : Mode} : Mode.ofName? name = none →
      env name = some r → r.value.text?.bind Mode.ofName? = some mode →
      Resolves env base (some name) (ofMode base (some mode) (some name))
  | pending {name : String} {r : Reading} : Mode.ofName? name = none → env name = some r →
      r.value.text?.bind Mode.ofName? = none → r.derived = true → r.supplied = false →
      Resolves env base (some name) (ofMode base none (some name))

inductive Packets.Resolves (env : Environment) (base : String) (symbols : UInt64)
    (d : PacketDeclaration) : Packets → Prop where
  | intro {usePackets : Resolved Bool} {useEmpty : Option (Resolved Bool)} :
      (ofFlag d.usePackets).Denotes env Value.boolean? usePackets →
      Option.Rel (fun raw r => (ofFlag raw).Denotes env Value.boolean? r) d.useEmpty useEmpty →
      Resolves env base symbols d (ofFlags base symbols usePackets useEmpty)

/-- A channel in use needs a largest number; one that is not may still have it. -/
inductive Channel.Resolves (env : Environment) (base : String) (d : ChannelDeclaration) :
    Channel → Prop where
  | used {useChannel : Resolved Bool} {raw : Scalar} {max : Resolved UInt64} :
      (ofFlag d.useChannel).Denotes env Value.boolean? useChannel → useChannel.value = true →
      d.maxChannel = some raw → (ofNumber raw).Denotes env Value.natural? max →
      Resolves env base d ⟨useChannel, some max, some ⟨base ++ "Channel", width max.value⟩⟩
  | unused {useChannel : Resolved Bool} {max : Option (Resolved UInt64)} :
      (ofFlag d.useChannel).Denotes env Value.boolean? useChannel → useChannel.value = false →
      Option.Rel (fun raw r => (ofNumber raw).Denotes env Value.natural? r) d.maxChannel max →
      Resolves env base d ⟨useChannel, max, none⟩

inductive ErrorSignal.Resolves (env : Environment) (base : String) (d : ErrorDeclaration) :
    ErrorSignal → Prop where
  | intro {width : Resolved UInt64} : (ofNumber d.width).Denotes env Value.natural? width →
      Resolves env base d ⟨base ++ "Error", width, d.descriptors⟩

/-- The endpoint that a declaration resolves to: the data width is positive and a multiple
of the symbol width, and every part resolves. -/
inductive Resolves (env : Environment) (direction : Direction) (d : Declaration) :
    Endpoint → Prop where
  | intro {dataWidth symbolWidth : Resolved UInt64} {handshake : Handshake}
      {packets : Option Packets} {channel : Option Channel} {error : Option ErrorSignal} :
      (ofNumber d.data.width).Denotes env Value.natural? dataWidth → dataWidth.value ≠ 0 →
      SymbolWidth env dataWidth d.data.symbolWidth symbolWidth →
      dataWidth.value % symbolWidth.value = 0 →
      Handshake.Resolves env d.data.name d.data.handshake handshake →
      Option.Rel (Packets.Resolves env d.data.name (dataWidth.value / symbolWidth.value))
        d.packets packets →
      Option.Rel (Channel.Resolves env d.data.name) d.channel channel →
      Option.Rel (ErrorSignal.Resolves env d.data.name) d.error error →
      Resolves env direction d
        { name := d.name, direction, clock := d.clock, reset := d.reset
          data := d.data.name ++ "PayLoad", dataWidth, symbolWidth
          symbolsPerBeat := dataWidth.value / symbolWidth.value
          handshake, packets, channel, error }

theorem Mode.ofName?_eq_some_iff {name : String} {mode : Mode} :
    Mode.ofName? name = some mode ↔ Text.upper name = Text.upper mode.render := by
  constructor
  · intro h
    unfold Mode.ofName? at h
    have hfound := List.find?_some h
    rw [beq_iff_eq] at hfound
    exact hfound.symm
  · intro h
    rw [Mode.ofName?, h]
    cases mode <;> decide

theorem optionally_eq_ok_iff {δ ρ : Type} {resolve : δ → Except Point.Error ρ} {d : Option δ}
    {r : Option ρ} :
    optionally resolve d = .ok r ↔ Option.Rel (fun d r => resolve d = .ok r) d r := by
  cases d <;> cases r <;> simp [optionally, map_eq_ok_iff]

theorem resolveSymbolWidth_eq_ok_iff {dataWidth r : Resolved UInt64} {raw : Option Scalar} :
    resolveSymbolWidth env point dataWidth raw = .ok r ↔ SymbolWidth env dataWidth raw r := by
  cases raw with
  | none =>
    constructor
    · intro h; cases h; exact .absent
    · rintro ⟨⟩; rfl
  | some raw =>
    simp only [resolveSymbolWidth, bind_eq_ok_iff, Resolved.number_eq_ok_iff,
      Resolved.positive_eq_ok_iff]
    constructor
    · rintro ⟨_, h, hp, rfl⟩; exact .declared h hp
    · rintro ⟨h, hp⟩; exact ⟨_, h, hp, rfl⟩

theorem Handshake.resolve_eq_ok_iff {name : Option String} {h : Handshake} :
    Handshake.resolve env point base name = .ok h ↔ Handshake.Resolves env base name h := by
  constructor
  · intro hr
    unfold Handshake.resolve at hr
    split at hr
    · cases hr; exact .absent
    · split at hr
      next hm => cases hr; exact .literal hm
      next hm =>
        split at hr
        · cases hr
        next hp =>
          split at hr
          next hv => cases hr; exact .symbol hm hp hv
          next hv =>
            split at hr
            next hd =>
              cases hr
              simp only [Bool.and_eq_true, Bool.not_eq_true'] at hd
              exact .pending hm hp hv hd.1 hd.2
            · cases hr
  · rintro (_ | hm | ⟨hm, hp, hv⟩ | ⟨hm, hp, hv, hd, hs⟩) <;> simp [Handshake.resolve, *]

theorem Packets.resolve_eq_ok_iff {symbols : UInt64} {d : PacketDeclaration} {p : Packets} :
    Packets.resolve env point base symbols d = .ok p ↔ Packets.Resolves env base symbols d p := by
  obtain ⟨usePackets, useEmpty⟩ := d
  cases useEmpty with
  | none =>
    simp only [Packets.resolve, Packets.flag, bind_eq_ok_iff, Resolved.orElse_flag?_eq_ok_iff,
      Except.ok.injEq]
    constructor
    · rintro ⟨_, hu, rfl⟩; exact .intro hu .none
    · rintro ⟨hu, ⟨⟩⟩; exact ⟨_, hu, rfl⟩
  | some raw =>
    simp only [Packets.resolve, Packets.flag, bind_eq_ok_iff, Resolved.orElse_flag?_eq_ok_iff,
      Except.ok.injEq]
    constructor
    · rintro ⟨_, hu, _, he, rfl⟩; exact .intro hu (.some he)
    · rintro ⟨hu, ⟨he⟩⟩; exact ⟨_, hu, _, he, rfl⟩

theorem Channel.resolve_eq_ok_iff {d : ChannelDeclaration} {c : Channel} :
    Channel.resolve env point base d = .ok c ↔ Channel.Resolves env base d c := by
  obtain ⟨useChannel, maxChannel⟩ := d
  cases maxChannel with
  | none =>
    simp only [Channel.resolve, bind_eq_ok_iff, Resolved.orElse_flag?_eq_ok_iff, ofLimit]
    constructor
    · rintro ⟨u, hu, h⟩
      split at h
      · cases h
      next hn => cases h; exact .unused hu (Bool.eq_false_iff.mpr hn) .none
    · rintro (⟨_, _, ⟨⟩, _⟩ | ⟨hu, hn, ⟨⟩⟩)
      exact ⟨_, hu, by simp [hn]⟩
  | some raw =>
    simp only [Channel.resolve, bind_eq_ok_iff, Resolved.orElse_flag?_eq_ok_iff,
      Resolved.orElse_natural?_eq_ok_iff, ofLimit]
    constructor
    · rintro ⟨u, hu, m, hm, h⟩
      split at h
      next hy => cases h; exact .used hu hy rfl hm
      next hn => cases h; exact .unused hu (Bool.eq_false_iff.mpr hn) (.some hm)
    · rintro (⟨hu, hy, ⟨⟩, hm⟩ | ⟨hu, hn, ⟨hm⟩⟩)
      · exact ⟨_, hu, _, hm, by simp [hy]⟩
      · exact ⟨_, hu, _, hm, by simp [hn]⟩

theorem ErrorSignal.resolve_eq_ok_iff {d : ErrorDeclaration} {e : ErrorSignal} :
    ErrorSignal.resolve env point base d = .ok e ↔ ErrorSignal.Resolves env base d e := by
  simp only [ErrorSignal.resolve, bind_eq_ok_iff, Resolved.number_eq_ok_iff, Except.ok.injEq]
  constructor
  · rintro ⟨_, h, rfl⟩; exact .intro h
  · rintro ⟨h⟩; exact ⟨_, h, rfl⟩

theorem resolve_eq_ok_iff {d : Declaration} {e : Endpoint} :
    resolve env direction d = .ok e ↔ Resolves env direction d e := by
  simp only [resolve, bind_eq_ok_iff, Resolved.number_eq_ok_iff, Resolved.positive_eq_ok_iff,
    resolveSymbolWidth_eq_ok_iff, symbolCount_eq_ok_iff, Handshake.resolve_eq_ok_iff,
    optionally_eq_ok_iff, Packets.resolve_eq_ok_iff, Channel.resolve_eq_ok_iff,
    ErrorSignal.resolve_eq_ok_iff, Except.ok.injEq]
  constructor
  · rintro ⟨_, hw, _, ⟨hp, rfl⟩, _, hs, _, ⟨hd, rfl⟩, _, hh, _, hpk, _, hc, _, he, rfl⟩
    exact .intro hw hp hs hd hh hpk hc he
  · rintro ⟨hw, hp, hs, hd, hh, hpk, hc, he⟩
    exact ⟨_, hw, _, ⟨hp, rfl⟩, _, hs, _, ⟨hd, rfl⟩, _, hh, _, hpk, _, hc, _, he, rfl⟩

/-- A handshake is symbolic when it is not the name of a mode. -/
def Handshake.symbols : Option String → List (String × String)
  | some name => if (Mode.ofName? name).isSome then [] else [("handshake", name)]
  | none => []

def PacketDeclaration.symbols (d : PacketDeclaration) : List (String × String) :=
  (ofFlag d.usePackets).symbols "use packets"
    ++ d.useEmpty.toList.flatMap fun raw => (ofFlag raw).symbols "use empty"

def ChannelDeclaration.symbols (d : ChannelDeclaration) : List (String × String) :=
  (ofFlag d.useChannel).symbols "use channel"
    ++ d.maxChannel.toList.flatMap fun raw => (ofNumber raw).symbols "max channel"

/-- The fields of a declaration that name a parameter, in order. -/
def Declaration.symbols (d : Declaration) : List (String × String) :=
  (ofNumber d.data.width).symbols "data width"
    ++ d.data.symbolWidth.toList.flatMap (fun raw => (ofNumber raw).symbols "symbol width")
    ++ Handshake.symbols d.data.handshake
    ++ d.packets.toList.flatMap PacketDeclaration.symbols
    ++ d.channel.toList.flatMap ChannelDeclaration.symbols
    ++ d.error.toList.flatMap fun e => (ofNumber e.width).symbols "error width"

theorem Handshake.Resolves.key_eq {name : Option String} {h : Handshake}
    (hr : Handshake.Resolves env base name h) :
    (h.key.map fun key => ("handshake", key)).toList = Handshake.symbols name := by
  cases hr with
  | absent => rfl
  | literal hm => simp [ofMode, Handshake.symbols, hm]
  | symbol hm | pending hm => simp [ofMode, Handshake.symbols, hm]

theorem Handshake.Resolves.key_congr {name : Option String} {h h' : Handshake}
    (hr : Handshake.Resolves env base name h) (hr' : Handshake.Resolves env' base name h') :
    h.key = h'.key := by
  have heq := hr.key_eq.trans hr'.key_eq.symm
  cases hk : h.key <;> cases hk' : h'.key <;> simp_all

theorem Handshake.Resolves.text_eq {name : Option String} {h : Handshake}
    (hr : Handshake.Resolves env base name h) {key : String} {mode : Mode}
    (hk : h.key = some key) (hm : h.mode = some mode) :
    ∃ r text, env key = some r ∧ r.value = .text text ∧
      Text.upper text = Text.upper mode.render := by
  cases hr with
  | absent | literal => cases hk
  | pending => cases hm
  | @symbol _ r _ _ hp hv =>
    cases hk
    cases hm
    obtain ⟨text, ht, hn⟩ := Option.bind_eq_some_iff.mp hv
    refine ⟨r, text, hp, ?_, Mode.ofName?_eq_some_iff.mp hn⟩
    cases hvalue : r.value <;> rw [hvalue] at ht <;> cases ht
    rfl

theorem SymbolWidth.symbolic_eq {dataWidth r : Resolved UInt64} {raw : Option Scalar}
    (h : SymbolWidth env dataWidth raw r) :
    (if raw.isSome then r.symbolic "symbol width" else [])
      = raw.toList.flatMap fun raw => (ofNumber raw).symbols "symbol width" := by
  cases h with
  | declared h => simp [h.symbolic_eq]
  | absent => rfl

theorem Packets.Resolves.symbolic_eq {symbols : UInt64} {d : PacketDeclaration} {p : Packets}
    (h : Packets.Resolves env base symbols d p) :
    p.usePackets.symbolic "use packets" ++ p.useEmpty.toList.flatMap (·.symbolic "use empty")
      = d.symbols := by
  obtain ⟨hu, he⟩ := h
  rw [PacketDeclaration.symbols, ← hu.symbolic_eq]
  exact congrArg _ (flatMap_eq_of_forall₂ (forall₂_toList he) fun _ _ h => h.symbolic_eq)

theorem Channel.Resolves.symbolic_eq {d : ChannelDeclaration} {c : Channel}
    (h : Channel.Resolves env base d c) :
    c.useChannel.symbolic "use channel" ++ c.maxChannel.toList.flatMap (·.symbolic "max channel")
      = d.symbols := by
  cases h with
  | used hu _ hm hr => simp [ChannelDeclaration.symbols, hm, hu.symbolic_eq, hr.symbolic_eq]
  | unused hu _ hr =>
    rw [ChannelDeclaration.symbols, ← hu.symbolic_eq]
    exact congrArg _ (flatMap_eq_of_forall₂ (forall₂_toList hr) fun _ _ h => h.symbolic_eq)

theorem ErrorSignal.Resolves.symbolic_eq {d : ErrorDeclaration} {e : ErrorSignal}
    (h : ErrorSignal.Resolves env base d e) :
    e.width.symbolic "error width" = (ofNumber d.width).symbols "error width" := by
  cases h with
  | intro h => exact h.symbolic_eq

theorem Resolves.symbolicFields_eq {d : Declaration} {e : Endpoint}
    (h : Resolves env direction d e) : e.symbolicFields d = d.symbols := by
  obtain ⟨hw, -, hs, -, hh, hp, hc, he⟩ := h
  simp only [symbolicFields, Declaration.symbols, hw.symbolic_eq, hs.symbolic_eq, hh.key_eq,
    flatMap_eq_of_forall₂ (forall₂_toList hp) fun _ _ h => h.symbolic_eq,
    flatMap_eq_of_forall₂ (forall₂_toList hc) fun _ _ h => h.symbolic_eq,
    flatMap_eq_of_forall₂ (forall₂_toList he) fun _ _ h => h.symbolic_eq]

theorem optionally_congr {δ ρ : Type} {resolve resolve' : δ → Except Point.Error ρ} {d : Option δ}
    (h : ∀ x ∈ d, resolve x = resolve' x) : optionally resolve d = optionally resolve' d := by
  cases d with
  | none => rfl
  | some x => simp only [optionally, h x rfl]

theorem resolveSymbolWidth_congr {dataWidth : Resolved UInt64} {raw : Option Scalar}
    (h : ∀ r ∈ raw, AgreeOn ((ofNumber r).symbols "symbol width") env env') :
    resolveSymbolWidth env point dataWidth raw = resolveSymbolWidth env' point dataWidth raw := by
  cases raw with
  | none => rfl
  | some raw => simp only [resolveSymbolWidth, Resolved.number_congr (h raw rfl)]

theorem Handshake.resolve_congr {name : Option String}
    (h : AgreeOn (Handshake.symbols name) env env') :
    Handshake.resolve env point base name = Handshake.resolve env' point base name := by
  cases name with
  | none => rfl
  | some name =>
    cases hm : Mode.ofName? name with
    | some mode => simp only [Handshake.resolve, hm]
    | none =>
      have hn : env name = env' name := h ("handshake", name) (by simp [Handshake.symbols, hm])
      simp only [Handshake.resolve, hm, hn]

theorem Packets.resolve_congr {symbols : UInt64} {d : PacketDeclaration}
    (h : AgreeOn d.symbols env env') :
    Packets.resolve env point base symbols d = Packets.resolve env' point base symbols d := by
  simp only [PacketDeclaration.symbols, agreeOn_append, agreeOn_flatMap, Option.mem_toList] at h
  obtain ⟨hu, he⟩ := h
  obtain ⟨usePackets, useEmpty⟩ := d
  cases useEmpty with
  | none => simp only [Packets.resolve, Packets.flag, Resolved.flag?_congr hu]
  | some raw =>
    simp only [Packets.resolve, Packets.flag, Resolved.flag?_congr hu,
      Resolved.flag?_congr (he raw rfl)]

theorem Channel.resolve_congr {d : ChannelDeclaration} (h : AgreeOn d.symbols env env') :
    Channel.resolve env point base d = Channel.resolve env' point base d := by
  simp only [ChannelDeclaration.symbols, agreeOn_append, agreeOn_flatMap, Option.mem_toList] at h
  obtain ⟨hu, hm⟩ := h
  obtain ⟨useChannel, maxChannel⟩ := d
  cases maxChannel with
  | none => simp only [Channel.resolve, Resolved.flag?_congr hu]
  | some raw =>
    simp only [Channel.resolve, Resolved.flag?_congr hu,
      Resolved.natural?_congr (hm raw rfl)]

/-- Resolution reads no parameter but those of the symbolic fields. -/
theorem resolve_congr {d : Declaration} (h : AgreeOn d.symbols env env') :
    resolve env direction d = resolve env' direction d := by
  simp only [Declaration.symbols, agreeOn_append, agreeOn_flatMap, Option.mem_toList] at h
  obtain ⟨⟨⟨⟨⟨hw, hs⟩, hh⟩, hp⟩, hc⟩, he⟩ := h
  have hpackets : ∀ symbols, optionally (Packets.resolve env d.name d.data.name symbols) d.packets
      = optionally (Packets.resolve env' d.name d.data.name symbols) d.packets :=
    fun _ => optionally_congr fun _ hx => Packets.resolve_congr (hp _ hx)
  have hchannel : optionally (Channel.resolve env d.name d.data.name) d.channel
      = optionally (Channel.resolve env' d.name d.data.name) d.channel :=
    optionally_congr fun _ hx => Channel.resolve_congr (hc _ hx)
  have herror : optionally (ErrorSignal.resolve env d.name d.data.name) d.error
      = optionally (ErrorSignal.resolve env' d.name d.data.name) d.error :=
    optionally_congr fun _ hx => by
      simp only [ErrorSignal.resolve, Resolved.number_congr (he _ hx)]
  simp only [resolve, Resolved.number_congr hw, resolveSymbolWidth_congr hs,
    Handshake.resolve_congr hh, hpackets, hchannel, herror]

def Packets.fields (p : Packets) : List Field :=
  .flag "use packets" p.usePackets :: p.useEmpty.toList.map (.flag "use empty")

def PacketDeclaration.origins (d : PacketDeclaration) : List Origin :=
  .flag "use packets" (ofFlag d.usePackets)
    :: d.useEmpty.toList.map fun raw => .flag "use empty" (ofFlag raw)

def Channel.fields (c : Channel) : List Field :=
  .flag "use channel" c.useChannel :: c.maxChannel.toList.map (.number "max channel")

def ChannelDeclaration.origins (d : ChannelDeclaration) : List Origin :=
  .flag "use channel" (ofFlag d.useChannel)
    :: d.maxChannel.toList.map fun raw => .number "max channel" (ofNumber raw)

/-- The resolved fields of an endpoint. -/
def fields (e : Endpoint) : List Field :=
  .number "data width" e.dataWidth :: .number "symbol width" e.symbolWidth
    :: e.packets.toList.flatMap Packets.fields
    ++ e.channel.toList.flatMap Channel.fields
    ++ e.error.toList.map fun s => .number "error width" s.width

/-- What the fields of the endpoint come from. A symbol width that is not declared comes
from the data width. -/
def Declaration.origins (d : Declaration) : List Origin :=
  .number "data width" (ofNumber d.data.width)
    :: .number "symbol width" (ofNumber (d.data.symbolWidth.getD d.data.width))
    :: d.packets.toList.flatMap PacketDeclaration.origins
    ++ d.channel.toList.flatMap ChannelDeclaration.origins
    ++ d.error.toList.map fun e => .number "error width" (ofNumber e.width)

theorem SymbolWidth.yields {width : Scalar} {dataWidth r : Resolved UInt64} {raw : Option Scalar}
    (hw : (ofNumber width).Denotes env Value.natural? dataWidth)
    (h : SymbolWidth env dataWidth raw r) :
    Origin.Yields env (.number "symbol width" (ofNumber (raw.getD width)))
      (.number "symbol width" r) := by
  cases h with
  | declared h => exact .number h
  | absent => exact .number hw

theorem Packets.Resolves.yields {symbols : UInt64} {d : PacketDeclaration} {p : Packets}
    (h : Packets.Resolves env base symbols d p) :
    List.Forall₂ (Origin.Yields env) d.origins p.fields := by
  obtain ⟨hu, he⟩ := h
  exact .cons (.flag hu) (List.rel_map (fun _ _ h => .flag h) (forall₂_toList he))

theorem Channel.Resolves.yields {d : ChannelDeclaration} {c : Channel}
    (h : Channel.Resolves env base d c) :
    List.Forall₂ (Origin.Yields env) d.origins c.fields := by
  cases h with
  | used hu _ hm hr =>
    rw [ChannelDeclaration.origins, hm]
    exact .cons (.flag hu) (.cons (.number hr) .nil)
  | unused hu _ hr =>
    exact .cons (.flag hu) (List.rel_map (fun _ _ h => .number h) (forall₂_toList hr))

theorem ErrorSignal.Resolves.yields {d : ErrorDeclaration} {e : ErrorSignal}
    (h : ErrorSignal.Resolves env base d e) :
    Origin.Yields env (.number "error width" (ofNumber d.width))
      (.number "error width" e.width) := by
  cases h with
  | intro h => exact .number h

theorem Resolves.yields {d : Declaration} {e : Endpoint} (h : Resolves env direction d e) :
    List.Forall₂ (Origin.Yields env) d.origins e.fields := by
  obtain ⟨hw, -, hs, -, -, hp, hc, he⟩ := h
  refine List.rel_append (List.rel_append (.cons (.number hw) (.cons (hs.yields hw) ?_)) ?_) ?_
  · exact List.rel_flatMap (forall₂_toList hp) fun _ _ h => h.yields
  · exact List.rel_flatMap (forall₂_toList hc) fun _ _ h => h.yields
  · exact List.rel_map (fun _ _ h => h.yields) (forall₂_toList he)

theorem Declaration.not_isComputed {d : Declaration} {o : Origin} (h : o ∈ d.origins) :
    ¬ o.IsComputed := by
  simp only [origins, PacketDeclaration.origins, ChannelDeclaration.origins, List.cons_append,
    List.mem_cons, List.mem_append, List.mem_flatMap, List.mem_map] at h
  rcases h with rfl | rfl | (⟨_, _, rfl | ⟨_, _, rfl⟩⟩ | ⟨_, _, rfl | ⟨_, _, rfl⟩⟩) |
    ⟨_, _, rfl⟩ <;> exact not_false

end Interconnect.Endpoint

import Interconnect.Proofs.Assignment
import Interconnect.Proofs.Encoding

/-! # What an encoding shows

The encoding of a resolved model determines it. Each record is encoded field by field, so it
is unambiguous when its fields are. The exception is the allowed range of a parameter, which
is encoded without saying what its values are; it takes no part where it is known to be the
same. The declaration behind a point is not encoded, but the interfaces of one description
have the same declarations, and so they differ in nothing when their encodings are equal.
-/

namespace Interconnect

open Encoding
open Parameter (Overrides Table)

namespace Parameter

theorem unambiguous_kind : Unambiguous fun k : Kind => count k.index :=
  unambiguous_index [.natural, .boolean, .text, .heading] (by decide) (by rintro ⟨⟩ <;> rfl)

/-- The bytes of a value after those of its kind. -/
def Value.payload : Value → Bytes
  | natural n => number n
  | boolean b => flag b
  | text s => Encoding.text s
  | absent => []

theorem Value.encode_eq (v : Value) : v.encode = count v.kind.index ++ v.payload := by
  cases v <;> rfl

theorem Value.tells_payload {v w : Value} (h : v.kind = w.kind) :
    Tells v.payload w.payload (v = w) := by
  cases v with
  | natural n =>
    cases w with
    | natural m => exact (unambiguous_number n m).imp (congrArg natural)
    | boolean | text | absent => cases h
  | boolean b =>
    cases w with
    | boolean c => exact (unambiguous_flag b c).imp (congrArg boolean)
    | natural | text | absent => cases h
  | text s =>
    cases w with
    | text t => exact (unambiguous_text s t).imp (congrArg text)
    | natural | boolean | absent => cases h
  | absent =>
    cases w with
    | absent => exact (Tells.same []).imp fun _ => rfl
    | natural | boolean | text => cases h

theorem Value.unambiguous_encode : Unambiguous Value.encode := by
  intro v w
  rw [encode_eq, encode_eq]
  exact ((unambiguous_kind v.kind w.kind).andThen Value.tells_payload).imp And.right

theorem tells_encode_of_allowed {p q : Parameter}
    (h : Tells (option Allowed.encode p.allowed) (option Allowed.encode q.allowed)
      (p.allowed = q.allowed)) :
    Tells p.encode q.encode (p = q) := by
  obtain ⟨name, kind, allowed, units, description, derived, value, consumed, supplied⟩ := p
  obtain ⟨name', kind', allowed', units', description', derived', value', consumed', supplied'⟩ := q
  exact ((unambiguous_text name name').append (unambiguous_kind kind kind')
    |>.append h
    |>.append (unambiguous_option unambiguous_text units units')
    |>.append (unambiguous_option unambiguous_text description description')
    |>.append (unambiguous_flag derived derived')
    |>.append (Value.unambiguous_encode value value')
    |>.append (unambiguous_flag consumed consumed')
    |>.append (unambiguous_flag supplied supplied')).imp (by simp +contextual)

theorem tells_encode {p q : Parameter} (h : p.allowed = q.allowed) :
    Tells p.encode q.encode (p = q) := by
  refine tells_encode_of_allowed ?_
  rw [h]
  exact (Tells.same _).imp fun _ => rfl

end Parameter

theorem Resolved.unambiguous_encode {α : Type} {encode : α → Bytes} (h : Unambiguous encode) :
    Unambiguous (Resolved.encode encode) := by
  rintro ⟨value, key⟩ ⟨value', key'⟩
  exact ((h value value').append (unambiguous_option unambiguous_text key key')).imp
    (by simp +contextual)

theorem Resolved.unambiguous_encodeNumber : Unambiguous encodeNumber :=
  unambiguous_encode unambiguous_number

theorem Resolved.unambiguous_encodeFlag : Unambiguous encodeFlag :=
  unambiguous_encode unambiguous_flag

open Resolved (unambiguous_encodeNumber unambiguous_encodeFlag)

theorem Signal.unambiguous_encode : Unambiguous Signal.encode := by
  rintro ⟨name, width⟩ ⟨name', width'⟩
  exact ((unambiguous_text name name').append (unambiguous_number32 width width')).imp
    (by simp +contextual)

theorem Clock.unambiguous_encode : Unambiguous Clock.encode := by
  rintro ⟨name, ⟨hz⟩⟩ ⟨name', ⟨hz'⟩⟩
  exact ((unambiguous_text name name').append (unambiguous_number hz hz')).imp
    (by simp +contextual)

theorem Reset.unambiguous_encode : Unambiguous Reset.encode := by
  have hedges : Unambiguous fun e : Edges => count e.index :=
    unambiguous_index [.deassert, .both, .none] (by decide) (by rintro ⟨⟩ <;> rfl)
  rintro ⟨name, clock, edges⟩ ⟨name', clock', edges'⟩
  exact ((unambiguous_text name name').append (unambiguous_text clock clock')
    |>.append (unambiguous_option hedges edges edges')).imp (by simp +contextual)

namespace Endpoint

theorem Handshake.unambiguous_encode : Unambiguous Handshake.encode := by
  have hmode : Unambiguous fun m : Mode => count m.index :=
    unambiguous_index [.standard, .noReady, .noValid, .noBackpressure, .noFeed] (by decide)
      (by rintro ⟨⟩ <;> rfl)
  rintro ⟨mode, key, valid, ready, validTerminated, readyTerminated⟩
    ⟨mode', key', valid', ready', validTerminated', readyTerminated'⟩
  exact ((unambiguous_option hmode mode mode').append
      (unambiguous_option unambiguous_text key key')
    |>.append (unambiguous_option unambiguous_text valid valid')
    |>.append (unambiguous_option unambiguous_text ready ready')
    |>.append (unambiguous_flag validTerminated validTerminated')
    |>.append (unambiguous_flag readyTerminated readyTerminated')).imp (by simp +contextual)

theorem Packets.unambiguous_encode : Unambiguous Packets.encode := by
  rintro ⟨usePackets, useEmpty, startOfPacket, endOfPacket, empty⟩
    ⟨usePackets', useEmpty', startOfPacket', endOfPacket', empty'⟩
  exact ((unambiguous_encodeFlag usePackets usePackets').append
      (unambiguous_option unambiguous_encodeFlag useEmpty useEmpty')
    |>.append (unambiguous_option unambiguous_text startOfPacket startOfPacket')
    |>.append (unambiguous_option unambiguous_text endOfPacket endOfPacket')
    |>.append (unambiguous_option Signal.unambiguous_encode empty empty')).imp
      (by simp +contextual)

theorem Channel.unambiguous_encode : Unambiguous Channel.encode := by
  rintro ⟨useChannel, maxChannel, signal⟩ ⟨useChannel', maxChannel', signal'⟩
  exact ((unambiguous_encodeFlag useChannel useChannel').append
      (unambiguous_option unambiguous_encodeNumber maxChannel maxChannel')
    |>.append (unambiguous_option Signal.unambiguous_encode signal signal')).imp
      (by simp +contextual)

theorem ErrorSignal.unambiguous_encode : Unambiguous ErrorSignal.encode := by
  rintro ⟨name, width, descriptors⟩ ⟨name', width', descriptors'⟩
  exact ((unambiguous_text name name').append (unambiguous_encodeNumber width width')
    |>.append (unambiguous_list text_ne_nil unambiguous_text descriptors descriptors')).imp
      (by simp +contextual)

theorem unambiguous_encode : Unambiguous encode := by
  have hdirection : Unambiguous fun d : Direction => count d.index :=
    unambiguous_index [.sink, .source] (by decide) (by rintro ⟨⟩ <;> rfl)
  intro a b
  refine ((unambiguous_text a.name b.name).append (hdirection a.direction b.direction)
    |>.append (unambiguous_text a.clock b.clock)
    |>.append (unambiguous_text a.reset b.reset)
    |>.append (unambiguous_text a.data b.data)
    |>.append (unambiguous_encodeNumber a.dataWidth b.dataWidth)
    |>.append (unambiguous_encodeNumber a.symbolWidth b.symbolWidth)
    |>.append (unambiguous_number a.symbolsPerBeat b.symbolsPerBeat)
    |>.append (.same (number32 readyLatency))
    |>.append (Handshake.unambiguous_encode a.handshake b.handshake)
    |>.append (unambiguous_option Packets.unambiguous_encode a.packets b.packets)
    |>.append (unambiguous_option Channel.unambiguous_encode a.channel b.channel)
    |>.append (unambiguous_option ErrorSignal.unambiguous_encode a.error b.error)).imp ?_
  cases a
  cases b
  simp +contextual

end Endpoint

namespace MemoryMapped

theorem Address.unambiguous_encode : Unambiguous Address.encode := by
  rintro ⟨name, width⟩ ⟨name', width'⟩
  exact ((unambiguous_text name name').append (unambiguous_encodeNumber width width')).imp
    (by simp +contextual)

theorem Burst.unambiguous_encode : Unambiguous Burst.encode := by
  rintro ⟨name, maxCount, width, onBoundariesOnly, lineWrap⟩
    ⟨name', maxCount', width', onBoundariesOnly', lineWrap'⟩
  exact ((unambiguous_text name name').append (unambiguous_encodeNumber maxCount maxCount')
    |>.append (unambiguous_encodeNumber width width')
    |>.append (unambiguous_encodeFlag onBoundariesOnly onBoundariesOnly')
    |>.append (unambiguous_encodeFlag lineWrap lineWrap')).imp (by simp +contextual)

theorem WriteSide.unambiguous_encode : Unambiguous WriteSide.encode := by
  rintro ⟨data, strobe, symbolWidth, byteEnable, waitTime, holdTime⟩
    ⟨data', strobe', symbolWidth', byteEnable', waitTime', holdTime'⟩
  exact ((unambiguous_text data data').append (unambiguous_text strobe strobe')
    |>.append (unambiguous_encodeNumber symbolWidth symbolWidth')
    |>.append (unambiguous_option Signal.unambiguous_encode byteEnable byteEnable')
    |>.append (unambiguous_encodeNumber waitTime waitTime')
    |>.append (unambiguous_encodeNumber holdTime holdTime')).imp (by simp +contextual)

theorem ReadSide.unambiguous_encode : Unambiguous ReadSide.encode := by
  rintro ⟨strobe, data, maxPending, waitTime, latency⟩
    ⟨strobe', data', maxPending', waitTime', latency'⟩
  exact ((unambiguous_text strobe strobe').append (unambiguous_text data data')
    |>.append (unambiguous_encodeNumber maxPending maxPending')
    |>.append (unambiguous_encodeNumber waitTime waitTime')
    |>.append (unambiguous_encodeNumber latency latency')).imp (by simp +contextual)

theorem unambiguous_encode : Unambiguous encode := by
  have hrole : Unambiguous fun r : Role => count r.index :=
    unambiguous_index [.slave, .master] (by decide) (by rintro ⟨⟩ <;> rfl)
  intro a b
  refine ((unambiguous_text a.name b.name).append (hrole a.role b.role)
    |>.append (unambiguous_text a.clock b.clock)
    |>.append (unambiguous_text a.reset b.reset)
    |>.append (unambiguous_option Address.unambiguous_encode a.address b.address)
    |>.append (unambiguous_option Burst.unambiguous_encode a.burst b.burst)
    |>.append (unambiguous_encodeNumber a.dataWidth b.dataWidth)
    |>.append (unambiguous_option WriteSide.unambiguous_encode a.write b.write)
    |>.append (unambiguous_option ReadSide.unambiguous_encode a.read b.read)
    |>.append (unambiguous_option unambiguous_text a.waitRequest b.waitRequest)
    |>.append (unambiguous_option unambiguous_text a.readDataValid b.readDataValid)
    |>.append (unambiguous_encodeNumber a.setupTime b.setupTime)
    |>.append (unambiguous_option unambiguous_encodeFlag a.bridgesToMaster
        b.bridgesToMaster)).imp ?_
  cases a
  cases b
  simp +contextual

end MemoryMapped

namespace Conduit

theorem ConduitSignal.unambiguous_encode : Unambiguous ConduitSignal.encode := by
  have hdirection : Unambiguous fun d : Direction => count d.index :=
    unambiguous_index [.input, .output, .bidirectional] (by decide) (by rintro ⟨⟩ <;> rfl)
  rintro ⟨name, direction, width⟩ ⟨name', direction', width'⟩
  exact ((unambiguous_text name name').append (hdirection direction direction')
    |>.append (unambiguous_encodeNumber width width')).imp (by simp +contextual)

theorem ConduitSignal.encode_ne_nil (s : ConduitSignal) : s.encode ≠ [] := by
  simp [ConduitSignal.encode, text_ne_nil]

theorem unambiguous_encode : Unambiguous encode := by
  rintro ⟨name, clock, reset, signals⟩ ⟨name', clock', reset', signals'⟩
  exact ((unambiguous_text name name').append (unambiguous_option unambiguous_text clock clock')
    |>.append (unambiguous_option unambiguous_text reset reset')
    |>.append (unambiguous_list ConduitSignal.encode_ne_nil ConduitSignal.unambiguous_encode
        signals signals')).imp (by simp +contextual)

end Conduit

namespace Point.Record

/-- The position of a record among the variants. -/
def index : Record → Nat
  | clock _ => 0
  | reset _ => 1
  | endpoint _ => 2
  | memoryMapped _ => 3
  | conduit _ => 4

/-- The bytes of a record after its position. -/
def payload : Record → Bytes
  | clock r => r.encode
  | reset r => r.encode
  | endpoint r => r.encode
  | memoryMapped r => r.encode
  | conduit r => r.encode

theorem encode_eq (r : Record) : r.encode = count r.index ++ r.payload := by
  cases r <;> rfl

theorem index_lt (r : Record) : r.index < UInt64.size := by
  cases r <;> exact of_decide_eq_true rfl

theorem tells_payload {a b : Record} (h : a.index = b.index) :
    Tells a.payload b.payload (a = b) := by
  cases a with
  | clock r =>
    cases b with
    | clock s => exact (Clock.unambiguous_encode r s).imp (congrArg clock)
    | reset | endpoint | memoryMapped | conduit => cases h
  | reset r =>
    cases b with
    | reset s => exact (Reset.unambiguous_encode r s).imp (congrArg reset)
    | clock | endpoint | memoryMapped | conduit => cases h
  | endpoint r =>
    cases b with
    | endpoint s => exact (Endpoint.unambiguous_encode r s).imp (congrArg endpoint)
    | clock | reset | memoryMapped | conduit => cases h
  | memoryMapped r =>
    cases b with
    | memoryMapped s => exact (MemoryMapped.unambiguous_encode r s).imp (congrArg memoryMapped)
    | clock | reset | endpoint | conduit => cases h
  | conduit r =>
    cases b with
    | conduit s => exact (Conduit.unambiguous_encode r s).imp (congrArg conduit)
    | clock | reset | endpoint | memoryMapped => cases h

theorem unambiguous_encode : Unambiguous encode := by
  intro a b
  rw [encode_eq, encode_eq]
  exact tells_variant a.index_lt b.index_lt tells_payload

end Point.Record

theorem Dictionary.tells_encode {α : Type} {encode : α → Bytes} {d d' : Dictionary α}
    (h : ∀ (n : Nat) v w, d.values[n]? = some v → d'.values[n]? = some w →
      Tells (encode v) (encode w) (v = w)) :
    Tells (d.encode encode) (d'.encode encode) (d = d') := by
  have hne (e : String × α) : Encoding.text e.1 ++ encode e.2 ≠ [] := by
    simp [text_ne_nil]
  refine (tells_list hne fun n e e' he he' => ?_).imp (congrArg Dictionary.mk)
  have hvalue := h n e.2 e'.2 (by simp [values, he]) (by simp [values, he'])
  exact ((unambiguous_text e.1 e'.1).append hvalue).imp fun ⟨hname, hv⟩ => Prod.ext hname hv

/-- The records of the points, without the declarations behind them. -/
def Registry.records (r : Registry) : Dictionary Point.Record :=
  ⟨r.entries.map fun e => (e.1, e.2.record)⟩

theorem Registry.encode_eq (r : Registry) :
    r.encode = Dictionary.encode Point.Record.encode r.records := by
  simp [Registry.encode, records, Dictionary.encode, Encoding.list, List.flatMap_map]

theorem Component.unambiguous_encode : Unambiguous Component.encode := by
  rintro ⟨name, version, description⟩ ⟨name', version', description'⟩
  exact ((unambiguous_text name name').append (unambiguous_text version version')
    |>.append (unambiguous_text description description')).imp (by simp +contextual)

namespace Interface

/-- Two interfaces agree in everything but the declarations behind their points. -/
structure SameContents (i j : Interface) : Prop where
  component : i.component = j.component
  parameters : i.parameters = j.parameters
  records : i.points.records = j.points.records

/-- The parameters at each place have the same allowed range. -/
def AllowedAlike (i j : Interface) : Prop :=
  ∀ (n : Nat) p q, i.parameters.values[n]? = some p → j.parameters.values[n]? = some q →
    p.allowed = q.allowed

theorem tells_encode {i j : Interface} (h : i.AllowedAlike j) :
    Tells i.encode j.encode (SameContents i j) := by
  have hparameters : Tells i.parameters.encode j.parameters.encode (i.parameters = j.parameters) :=
    Dictionary.tells_encode fun n p q hp hq => Parameter.tells_encode (h n p q hp hq)
  have hrecords : Tells i.points.encode j.points.encode (i.points.records = j.points.records) := by
    rw [Registry.encode_eq, Registry.encode_eq]
    exact Dictionary.tells_encode fun _ a b _ _ => Point.Record.unambiguous_encode a b
  exact ((Component.unambiguous_encode i.component j.component).append hparameters
    |>.append hrecords).imp fun ⟨⟨hc, hp⟩, hr⟩ => ⟨hc, hp, hr⟩

end Interface

namespace Parameter.Table

theorem map_allowed_update (t : Table) (name : String) (raw : Scalar) :
    (t.update name raw).state.values.map (·.allowed) = t.values.map (·.allowed) := by
  obtain ⟨p, v, -, -, hu⟩ | ⟨e, hu⟩ := update_cases t name raw
  · rw [hu]
    simp only [Outcome.succeed, Dictionary.values, Dictionary.modify, List.map_map]
    refine List.map_congr_left fun e _ => ?_
    by_cases hname : e.1 = name <;> simp [hname, assign]
  · rw [hu]
    rfl

theorem map_allowed_applyOverrides (t : Table) (overrides : Overrides) :
    (t.applyOverrides overrides).state.values.map (·.allowed) = t.values.map (·.allowed) :=
  Outcome.forEach_preserves
    (P := fun s : Table => s.values.map (·.allowed) = t.values.map (·.allowed))
    (fun s o hs => (map_allowed_update s o.1 o.2).trans hs) rfl overrides

@[simp] theorem map_allowed_unmarked (t : Table) :
    t.unmarked.values.map (·.allowed) = t.values.map (·.allowed) := by
  simp only [unmarked, Dictionary.values, List.map_map]
  rfl

end Parameter.Table

namespace Interface

/-- The interface is a resolution of the description, or what a run makes of one. -/
def Models (i : Interface) (d : Description) : Prop :=
  ∃ host resolved ops, resolve d host = .ok resolved ∧ resolved.run ops = i

variable {d : Description} {i j : Interface}

theorem Models.allowedAlike {d' : Description} (hi : i.Models d) (hj : j.Models d')
    (h : d'.parameters = d.parameters) : i.AllowedAlike j := by
  have hdeclared {k : Interface} {d : Description} (hk : k.Models d) : ∃ declared,
      Table.ofDeclarations d.parameters = .ok declared ∧
      k.parameters.values.map (·.allowed) = declared.values.map (·.allowed) := by
    obtain ⟨host, resolved, ops, hresolve, rfl⟩ := hk
    obtain ⟨declared, hdeclared, hrun⟩ := exists_declared_of_run hresolve ops
    obtain ⟨-, hrun⟩ := Outcome.toExcept_eq_ok_iff.mp hrun
    refine ⟨declared, hdeclared, ?_⟩
    rw [← Table.map_allowed_unmarked, ← hrun, Table.map_allowed_applyOverrides]
  obtain ⟨declared, hi, hallowed⟩ := hdeclared hi
  obtain ⟨declared', hj, hallowed'⟩ := hdeclared hj
  rw [h, hi] at hj
  obtain rfl := Except.ok.inj hj
  intro n p q hp hq
  have hn := congrArg (fun l => l[n]?) (hallowed.trans hallowed'.symm)
  simpa [hp, hq] using hn

/-- The points of a model are those that its parameters make of the description. -/
theorem Models.eq_of_parameters_eq (hi : i.Models d) (hj : j.Models d)
    (hcomponent : i.component = j.component) (hparameters : i.parameters = j.parameters) :
    i = j := by
  have hpoints {k : Interface} (hk : k.Models d) :
      Registry.ofDeclarations k.parameters.environment d.points = .ok k.points := by
    obtain ⟨host, resolved, ops, hresolve, rfl⟩ := hk
    exact ofDeclarations_run hresolve ops
  have hi := hpoints hi
  rw [hparameters, hpoints hj] at hi
  obtain ⟨component, parameters, points⟩ := i
  obtain rfl : component = j.component := hcomponent
  obtain rfl : parameters = j.parameters := hparameters
  obtain rfl : j.points = points := Except.ok.inj hi
  rfl

/-- Interfaces with equal encodings agree in everything that is encoded when their parameters
have the same allowed ranges. Models of one description are then equal. A length is written
in 64 bits, and so the encoding must be one that has its length in 64 bits. -/
theorem eq_of_encode_eq (hlength : i.encode.length < UInt64.size) (h : i.encode = j.encode) :
    (i.AllowedAlike j → SameContents i j) ∧
      ∀ d : Description, i.Models d → j.Models d → i = j := by
  have hcontents (halike : i.AllowedAlike j) : SameContents i j :=
    (tells_encode halike).of_eq hlength h
  refine ⟨hcontents, fun d hi hj => ?_⟩
  have hsame := hcontents (hi.allowedAlike hj rfl)
  exact hi.eq_of_parameters_eq hj hsame.component hsame.parameters

/-- A sink of the given width. -/
def literalSink (width : Scalar) : Description where
  component := Showcase.component
  parameters := []
  points :=
    [ .sink { name := "In", clock := "Clk", reset := "Reset", data := { name := "D", width } } ]
  overrides := []

/-- A width may be written as a number or as its digits. The points are the same but for what
their declarations say. An assigned value leaves no trace of how it was written. -/
theorem eq_of_encode_eq_literalSink :
    (∃ i j, resolve (literalSink (.number 8)) [] = .ok i ∧
      resolve (literalSink (.text "8")) [] = .ok j ∧ SameContents i j ∧ i ≠ j) ∧
    ∃ i j, resolve pendingSink [("WIDTH", .number 24)] = .ok i ∧
      resolve pendingSink [("WIDTH", .text "24")] = .ok j ∧ i = j := by
  constructor
  · have hi : resolve (literalSink (.number 8)) [] = .ok _ := rfl
    have hj : resolve (literalSink (.text "8")) [] = .ok _ := rfl
    have halike := Models.allowedAlike ⟨_, _, [], hi, rfl⟩ ⟨_, _, [], hj, rfl⟩ rfl
    exact ⟨_, _, hi, hj, (eq_of_encode_eq (by decide +kernel) (by decide +kernel)).1 halike,
      by decide +kernel⟩
  · have hi : resolve pendingSink [("WIDTH", .number 24)] = .ok _ := rfl
    have hj : resolve pendingSink [("WIDTH", .text "24")] = .ok _ := rfl
    exact ⟨_, _, hi, hj, (eq_of_encode_eq (by decide +kernel) (by decide +kernel)).2 pendingSink
      ⟨_, _, [], hi, rfl⟩ ⟨_, _, [], hj, rfl⟩⟩

end Interface

end Interconnect

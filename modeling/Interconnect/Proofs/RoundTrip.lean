import Interconnect.Proofs.Form
import Interconnect.Description.PointTable

/-! # Declarations written as tables

Every declaration of a connection point is written under the names of its fields, with its
kind in front. Reading a table that shows these fields gives the declaration back. This
holds whatever else the table and the tables of its parts contain.
-/

namespace Interconnect

open Toml (Fields Form Recovers RecoversFields)

/-! ## The fields of a declaration -/

def Clock.Declaration.fields (d : Clock.Declaration) : List (String × Form) :=
  [("name", .scalar (.text d.name)), ("rate", .optional .scalar d.rate)]

def Reset.Declaration.fields (d : Reset.Declaration) : List (String × Form) :=
  [("name", .scalar (.text d.name)), ("clock", .scalar (.text d.clock)),
   ("edges", .optional (fun s => .scalar (.text s)) d.edges)]

def ClockReset.fields (d : ClockReset) : List (String × Form) :=
  [("clock", .scalar (.text d.clock)), ("rate", .optional .scalar d.rate),
   ("reset", .scalar (.text d.reset)),
   ("edges", .optional (fun s => .scalar (.text s)) d.edges)]

namespace Endpoint

def DataDeclaration.fields (d : DataDeclaration) : List (String × Form) :=
  [("name", .scalar (.text d.name)), ("width", .scalar d.width),
   ("symbol_width", .optional .scalar d.symbolWidth),
   ("handshake", .optional (fun s => .scalar (.text s)) d.handshake)]

def PacketDeclaration.fields (d : PacketDeclaration) : List (String × Form) :=
  [("use_packets", .scalar d.usePackets), ("use_empty", .optional .scalar d.useEmpty)]

def ChannelDeclaration.fields (d : ChannelDeclaration) : List (String × Form) :=
  [("use_channel", .scalar d.useChannel), ("max_channel", .optional .scalar d.maxChannel)]

def ErrorDeclaration.fields (d : ErrorDeclaration) : List (String × Form) :=
  [("width", .scalar d.width),
   ("descriptors", .list (d.descriptors.map fun s => .scalar (.text s)))]

def Declaration.fields (d : Declaration) : List (String × Form) :=
  [("name", .scalar (.text d.name)), ("clock", .scalar (.text d.clock)),
   ("reset", .scalar (.text d.reset)), ("data", .record d.data.fields),
   ("packets", .optional (fun p => .record p.fields) d.packets),
   ("channel", .optional (fun c => .record c.fields) d.channel),
   ("error", .optional (fun e => .record e.fields) d.error)]

end Endpoint

namespace MemoryMapped

def AddressDeclaration.fields (d : AddressDeclaration) : List (String × Form) :=
  [("name", .scalar (.text d.name)), ("width", .scalar d.width)]

def BurstDeclaration.fields (d : BurstDeclaration) : List (String × Form) :=
  [("name", .scalar (.text d.name)), ("max_count", .scalar d.maxCount),
   ("width", .optional .scalar d.width),
   ("on_boundaries_only", .optional .scalar d.onBoundariesOnly),
   ("line_wrap", .optional .scalar d.lineWrap)]

def WriteDeclaration.fields (d : WriteDeclaration) : List (String × Form) :=
  [("data", .scalar (.text d.data)), ("strobe", .scalar (.text d.strobe)),
   ("symbol_width", .optional .scalar d.symbolWidth),
   ("byte_enable", .optional (fun s => .scalar (.text s)) d.byteEnable),
   ("wait_time", .optional .scalar d.waitTime), ("hold_time", .optional .scalar d.holdTime)]

def ReadDeclaration.fields (d : ReadDeclaration) : List (String × Form) :=
  [("strobe", .scalar (.text d.strobe)), ("data", .scalar (.text d.data)),
   ("max_pending", .optional .scalar d.maxPending),
   ("wait_time", .optional .scalar d.waitTime), ("latency", .optional .scalar d.latency)]

def Declaration.fields (d : Declaration) : List (String × Form) :=
  [("name", .scalar (.text d.name)), ("clock", .scalar (.text d.clock)),
   ("reset", .scalar (.text d.reset)),
   ("address", .optional (fun a => .record a.fields) d.address),
   ("burst", .optional (fun b => .record b.fields) d.burst),
   ("data_width", .optional .scalar d.dataWidth),
   ("write", .optional (fun w => .record w.fields) d.write),
   ("read", .optional (fun r => .record r.fields) d.read),
   ("wait_request", .optional (fun s => .scalar (.text s)) d.waitRequest),
   ("read_data_valid", .optional (fun s => .scalar (.text s)) d.readDataValid),
   ("setup_time", .optional .scalar d.setupTime),
   ("bridges_to_master", .optional .scalar d.bridgesToMaster)]

end MemoryMapped

namespace Conduit

def SignalDeclaration.fields (d : SignalDeclaration) : List (String × Form) :=
  [("name", .scalar (.text d.name)), ("direction", .scalar (.text d.direction)),
   ("width", .scalar d.width)]

def Declaration.fields (d : Declaration) : List (String × Form) :=
  [("name", .scalar (.text d.name)),
   ("clock", .optional (fun s => .scalar (.text s)) d.clock),
   ("reset", .optional (fun s => .scalar (.text s)) d.reset),
   ("signals", .list (d.signals.map fun s => .record s.fields))]

end Conduit

namespace Point.Declaration

/-- The kind comes before the fields of the declaration. -/
def fields (d : Declaration) : List (String × Form) :=
  ("kind", .scalar (.text d.kind.tag)) ::
    match d with
    | clock d => d.fields
    | reset d => d.fields
    | clockReset d => d.fields
    | sink d => d.fields
    | source d => d.fields
    | master d => d.fields
    | slave d => d.fields
    | conduit d => d.fields

def form (d : Declaration) : Form := .record d.fields

/-- The table with the fields of the declaration, in their order, and nothing else. -/
def table (d : Declaration) : Fields := Form.writeFields d.fields

end Point.Declaration

/-! ## Names are distinct -/

theorem Clock.Declaration.proper_fields (d : Clock.Declaration) :
    (Form.record d.fields).Proper := by
  apply Form.Proper.record
  · simp [fields]
  · simp only [fields, List.forall_mem_cons]
    exact ⟨.scalar _, .optional .scalar, List.forall_mem_nil _⟩

theorem Reset.Declaration.proper_fields (d : Reset.Declaration) :
    (Form.record d.fields).Proper := by
  apply Form.Proper.record
  · simp [fields]
  · simp only [fields, List.forall_mem_cons]
    exact ⟨.scalar _, .scalar _, .optional fun _ => .scalar _, List.forall_mem_nil _⟩

theorem ClockReset.proper_fields (d : ClockReset) : (Form.record d.fields).Proper := by
  apply Form.Proper.record
  · simp [fields]
  · simp only [fields, List.forall_mem_cons]
    exact ⟨.scalar _, .optional .scalar, .scalar _, .optional fun _ => .scalar _,
      List.forall_mem_nil _⟩

namespace Endpoint

theorem DataDeclaration.proper_fields (d : DataDeclaration) : (Form.record d.fields).Proper := by
  apply Form.Proper.record
  · simp [fields]
  · simp only [fields, List.forall_mem_cons]
    exact ⟨.scalar _, .scalar _, .optional .scalar, .optional fun _ => .scalar _,
      List.forall_mem_nil _⟩

theorem PacketDeclaration.proper_fields (d : PacketDeclaration) :
    (Form.record d.fields).Proper := by
  apply Form.Proper.record
  · simp [fields]
  · simp only [fields, List.forall_mem_cons]
    exact ⟨.scalar _, .optional .scalar, List.forall_mem_nil _⟩

theorem ChannelDeclaration.proper_fields (d : ChannelDeclaration) :
    (Form.record d.fields).Proper := by
  apply Form.Proper.record
  · simp [fields]
  · simp only [fields, List.forall_mem_cons]
    exact ⟨.scalar _, .optional .scalar, List.forall_mem_nil _⟩

theorem ErrorDeclaration.proper_fields (d : ErrorDeclaration) : (Form.record d.fields).Proper := by
  apply Form.Proper.record
  · simp [fields]
  · simp only [fields, List.forall_mem_cons]
    exact ⟨.scalar _, .parts (fun _ => .scalar _) fun _ => rfl, List.forall_mem_nil _⟩

theorem Declaration.proper_fields (d : Declaration) : (Form.record d.fields).Proper := by
  apply Form.Proper.record
  · simp [fields]
  · simp only [fields, List.forall_mem_cons]
    exact ⟨.scalar _, .scalar _, .scalar _, d.data.proper_fields, .optional
      PacketDeclaration.proper_fields, .optional ChannelDeclaration.proper_fields, .optional
      ErrorDeclaration.proper_fields, List.forall_mem_nil _⟩

end Endpoint

namespace MemoryMapped

theorem AddressDeclaration.proper_fields (d : AddressDeclaration) :
    (Form.record d.fields).Proper := by
  apply Form.Proper.record
  · simp [fields]
  · simp only [fields, List.forall_mem_cons]
    exact ⟨.scalar _, .scalar _, List.forall_mem_nil _⟩

theorem BurstDeclaration.proper_fields (d : BurstDeclaration) : (Form.record d.fields).Proper := by
  apply Form.Proper.record
  · simp [fields]
  · simp only [fields, List.forall_mem_cons]
    exact ⟨.scalar _, .scalar _, .optional .scalar, .optional .scalar, .optional .scalar,
      List.forall_mem_nil _⟩

theorem WriteDeclaration.proper_fields (d : WriteDeclaration) : (Form.record d.fields).Proper := by
  apply Form.Proper.record
  · simp [fields]
  · simp only [fields, List.forall_mem_cons]
    exact ⟨.scalar _, .scalar _, .optional .scalar, .optional fun _ => .scalar _, .optional
      .scalar, .optional .scalar, List.forall_mem_nil _⟩

theorem ReadDeclaration.proper_fields (d : ReadDeclaration) : (Form.record d.fields).Proper := by
  apply Form.Proper.record
  · simp [fields]
  · simp only [fields, List.forall_mem_cons]
    exact ⟨.scalar _, .scalar _, .optional .scalar, .optional .scalar, .optional .scalar,
      List.forall_mem_nil _⟩

theorem Declaration.proper_fields (d : Declaration) : (Form.record d.fields).Proper := by
  apply Form.Proper.record
  · simp [fields]
  · simp only [fields, List.forall_mem_cons]
    exact ⟨.scalar _, .scalar _, .scalar _, .optional AddressDeclaration.proper_fields,
      .optional BurstDeclaration.proper_fields, .optional .scalar, .optional
      WriteDeclaration.proper_fields, .optional ReadDeclaration.proper_fields, .optional fun _ =>
      .scalar _, .optional fun _ => .scalar _, .optional .scalar, .optional .scalar,
      List.forall_mem_nil _⟩

end MemoryMapped

namespace Conduit

theorem SignalDeclaration.proper_fields (d : SignalDeclaration) :
    (Form.record d.fields).Proper := by
  apply Form.Proper.record
  · simp [fields]
  · simp only [fields, List.forall_mem_cons]
    exact ⟨.scalar _, .scalar _, .scalar _, List.forall_mem_nil _⟩

theorem Declaration.proper_fields (d : Declaration) : (Form.record d.fields).Proper := by
  apply Form.Proper.record
  · simp [fields]
  · simp only [fields, List.forall_mem_cons]
    exact ⟨.scalar _, .optional fun _ => .scalar _, .optional fun _ => .scalar _, .parts
      SignalDeclaration.proper_fields fun _ => rfl, List.forall_mem_nil _⟩

end Conduit

theorem Point.Declaration.proper_form (d : Point.Declaration) : d.form.Proper := by
  have hkind {fields : List (String × Form)} (tag : String)
      (h : (Form.record fields).Proper) (hnew : "kind" ∉ fields.map Prod.fst) :
      (Form.record (("kind", .scalar (.text tag)) :: fields)).Proper := by
    cases h with
    | record hnodup hparts =>
      exact .record (List.nodup_cons.mpr ⟨hnew, hnodup⟩)
        (List.forall_mem_cons.mpr ⟨.scalar _, hparts⟩)
  cases d with
  | clock d => exact hkind _ d.proper_fields (by simp [Clock.Declaration.fields])
  | reset d => exact hkind _ d.proper_fields (by simp [Reset.Declaration.fields])
  | clockReset d => exact hkind _ d.proper_fields (by simp [ClockReset.fields])
  | sink d => exact hkind _ d.proper_fields (by simp [Endpoint.Declaration.fields])
  | source d => exact hkind _ d.proper_fields (by simp [Endpoint.Declaration.fields])
  | master d => exact hkind _ d.proper_fields (by simp [MemoryMapped.Declaration.fields])
  | slave d => exact hkind _ d.proper_fields (by simp [MemoryMapped.Declaration.fields])
  | conduit d => exact hkind _ d.proper_fields (by simp [Conduit.Declaration.fields])

theorem Point.Declaration.shownBy_table (d : Point.Declaration) :
    d.form.ShownBy (some (.table d.table)) :=
  d.proper_form.shownBy_write

/-! ## What the readers find -/

namespace Description.PointTable

theorem recovers_text : Recovers text fun s => .scalar (.text s) :=
  Toml.recovers_text convention

theorem recovers_scalar : Recovers scalar .scalar := Toml.recovers_scalar convention

theorem recovers_clock : RecoversFields clock Clock.Declaration.fields := by
  intro d entries h
  simp only [Clock.Declaration.fields, List.forall_mem_cons] at h
  obtain ⟨hname, hrate, -⟩ := h
  simp only [clock, recovers_text.required hname, recovers_scalar.optional hrate,
    Option.bind_eq_bind, Option.bind_some, Option.pure_def]

theorem recovers_reset : RecoversFields reset Reset.Declaration.fields := by
  intro d entries h
  simp only [Reset.Declaration.fields, List.forall_mem_cons] at h
  obtain ⟨hname, hclock, hedges, -⟩ := h
  simp only [reset, recovers_text.required hname, recovers_text.required hclock,
    recovers_text.optional hedges, Option.bind_eq_bind, Option.bind_some, Option.pure_def]

theorem recovers_clockReset : RecoversFields clockReset ClockReset.fields := by
  intro d entries h
  simp only [ClockReset.fields, List.forall_mem_cons] at h
  obtain ⟨hclock, hrate, hreset, hedges, -⟩ := h
  simp only [clockReset, recovers_text.required hclock, recovers_scalar.optional hrate,
    recovers_text.required hreset, recovers_text.optional hedges, Option.bind_eq_bind,
    Option.bind_some, Option.pure_def]

theorem recovers_data : Recovers data fun d => .record d.fields := by
  refine Recovers.part (fun d entries h => ?_) _
  simp only [Endpoint.DataDeclaration.fields, List.forall_mem_cons] at h
  obtain ⟨hname, hwidth, hsymbolWidth, hhandshake, -⟩ := h
  simp only [recovers_text.required hname, recovers_scalar.required hwidth,
    recovers_scalar.optional hsymbolWidth, recovers_text.optional hhandshake,
    Option.bind_eq_bind, Option.bind_some, Option.pure_def]

theorem recovers_packets : Recovers packets fun d => .record d.fields := by
  refine Recovers.part (fun d entries h => ?_) _
  simp only [Endpoint.PacketDeclaration.fields, List.forall_mem_cons] at h
  obtain ⟨husePackets, huseEmpty, -⟩ := h
  simp only [recovers_scalar.required husePackets, recovers_scalar.optional huseEmpty,
    Option.bind_eq_bind, Option.bind_some, Option.pure_def]

theorem recovers_channel : Recovers channel fun d => .record d.fields := by
  refine Recovers.part (fun d entries h => ?_) _
  simp only [Endpoint.ChannelDeclaration.fields, List.forall_mem_cons] at h
  obtain ⟨huseChannel, hmaxChannel, -⟩ := h
  simp only [recovers_scalar.required huseChannel, recovers_scalar.optional hmaxChannel,
    Option.bind_eq_bind, Option.bind_some, Option.pure_def]

theorem recovers_error : Recovers error fun d => .record d.fields := by
  refine Recovers.part (fun d entries h => ?_) _
  simp only [Endpoint.ErrorDeclaration.fields, List.forall_mem_cons] at h
  obtain ⟨hwidth, hdescriptors, -⟩ := h
  simp only [recovers_scalar.required hwidth, recovers_text.orDefault hdescriptors,
    Option.bind_eq_bind, Option.bind_some, Option.pure_def]

theorem recovers_endpoint : RecoversFields endpoint Endpoint.Declaration.fields := by
  intro d entries h
  simp only [Endpoint.Declaration.fields, List.forall_mem_cons] at h
  obtain ⟨hname, hclock, hreset, hdata, hpackets, hchannel, herror, -⟩ := h
  simp only [endpoint, recovers_text.required hname, recovers_text.required hclock,
    recovers_text.required hreset, recovers_data.required hdata,
    recovers_packets.optional hpackets, recovers_channel.optional hchannel,
    recovers_error.optional herror, Option.bind_eq_bind, Option.bind_some, Option.pure_def]

theorem recovers_address : Recovers address fun d => .record d.fields := by
  refine Recovers.part (fun d entries h => ?_) _
  simp only [MemoryMapped.AddressDeclaration.fields, List.forall_mem_cons] at h
  obtain ⟨hname, hwidth, -⟩ := h
  simp only [recovers_text.required hname, recovers_scalar.required hwidth,
    Option.bind_eq_bind, Option.bind_some, Option.pure_def]

theorem recovers_burst : Recovers burst fun d => .record d.fields := by
  refine Recovers.part (fun d entries h => ?_) _
  simp only [MemoryMapped.BurstDeclaration.fields, List.forall_mem_cons] at h
  obtain ⟨hname, hmaxCount, hwidth, honBoundariesOnly, hlineWrap, -⟩ := h
  simp only [recovers_text.required hname, recovers_scalar.required hmaxCount,
    recovers_scalar.optional hwidth, recovers_scalar.optional honBoundariesOnly,
    recovers_scalar.optional hlineWrap, Option.bind_eq_bind, Option.bind_some,
    Option.pure_def]

theorem recovers_write : Recovers write fun d => .record d.fields := by
  refine Recovers.part (fun d entries h => ?_) _
  simp only [MemoryMapped.WriteDeclaration.fields, List.forall_mem_cons] at h
  obtain ⟨hdata, hstrobe, hsymbolWidth, hbyteEnable, hwaitTime, hholdTime, -⟩ := h
  simp only [recovers_text.required hdata, recovers_text.required hstrobe,
    recovers_scalar.optional hsymbolWidth, recovers_text.optional hbyteEnable,
    recovers_scalar.optional hwaitTime, recovers_scalar.optional hholdTime,
    Option.bind_eq_bind, Option.bind_some, Option.pure_def]

theorem recovers_read : Recovers read fun d => .record d.fields := by
  refine Recovers.part (fun d entries h => ?_) _
  simp only [MemoryMapped.ReadDeclaration.fields, List.forall_mem_cons] at h
  obtain ⟨hstrobe, hdata, hmaxPending, hwaitTime, hlatency, -⟩ := h
  simp only [recovers_text.required hstrobe, recovers_text.required hdata,
    recovers_scalar.optional hmaxPending, recovers_scalar.optional hwaitTime,
    recovers_scalar.optional hlatency, Option.bind_eq_bind, Option.bind_some,
    Option.pure_def]

theorem recovers_memoryMapped : RecoversFields memoryMapped MemoryMapped.Declaration.fields := by
  intro d entries h
  simp only [MemoryMapped.Declaration.fields, List.forall_mem_cons] at h
  obtain ⟨hname, hclock, hreset, haddress, hburst, hdataWidth, hwrite, hread, hwaitRequest,
    hreadDataValid, hsetupTime, hbridgesToMaster, -⟩ := h
  simp only [memoryMapped, recovers_text.required hname, recovers_text.required hclock,
    recovers_text.required hreset, recovers_address.optional haddress,
    recovers_burst.optional hburst, recovers_scalar.optional hdataWidth,
    recovers_write.optional hwrite, recovers_read.optional hread,
    recovers_text.optional hwaitRequest, recovers_text.optional hreadDataValid,
    recovers_scalar.optional hsetupTime, recovers_scalar.optional hbridgesToMaster,
    Option.bind_eq_bind, Option.bind_some, Option.pure_def]

theorem recovers_signal : Recovers signal fun d => .record d.fields := by
  refine Recovers.part (fun d entries h => ?_) _
  simp only [Conduit.SignalDeclaration.fields, List.forall_mem_cons] at h
  obtain ⟨hname, hdirection, hwidth, -⟩ := h
  simp only [recovers_text.required hname, recovers_text.required hdirection,
    recovers_scalar.required hwidth, Option.bind_eq_bind, Option.bind_some, Option.pure_def]

theorem recovers_conduit : RecoversFields conduit Conduit.Declaration.fields := by
  intro d entries h
  simp only [Conduit.Declaration.fields, List.forall_mem_cons] at h
  obtain ⟨hname, hclock, hreset, hsignals, -⟩ := h
  simp only [conduit, recovers_text.required hname, recovers_text.optional hclock,
    recovers_text.optional hreset, recovers_signal.orDefault hsignals, Option.bind_eq_bind,
    Option.bind_some, Option.pure_def]

theorem recovers_ofKind? (d : Point.Declaration) {entries : Fields}
    (h : ∀ field ∈ d.fields, field.2.ShownBy (entries.lookup field.1)) :
    ofKind? entries d.kind = some d := by
  obtain ⟨-, hfields⟩ := List.forall_mem_cons.mp h
  cases d with
  | clock d => exact congrArg (Option.map _) (recovers_clock d entries hfields)
  | reset d => exact congrArg (Option.map _) (recovers_reset d entries hfields)
  | clockReset d => exact congrArg (Option.map _) (recovers_clockReset d entries hfields)
  | sink d => exact congrArg (Option.map _) (recovers_endpoint d entries hfields)
  | source d => exact congrArg (Option.map _) (recovers_endpoint d entries hfields)
  | master d => exact congrArg (Option.map _) (recovers_memoryMapped d entries hfields)
  | slave d => exact congrArg (Option.map _) (recovers_memoryMapped d entries hfields)
  | conduit d => exact congrArg (Option.map _) (recovers_conduit d entries hfields)

theorem ofTag_tag (k : Point.Kind) : Point.Kind.ofTag k.tag = .ok k := by
  cases k <;> rfl

theorem kind_of_shownBy {k : Point.Kind} {entries : Fields} (index : Nat)
    (h : (Form.scalar (.text k.tag)).ShownBy (entries.lookup "kind")) :
    kind index entries = .ok k := by
  unfold kind
  generalize entries.lookup "kind" = found at h
  cases h
  exact congrArg (Except.mapError Error.point) (ofTag_tag k)

/-- The table that is written for a declaration shows it, and every table that shows it is
read as this declaration, at any index. -/
theorem declaration_of_shownBy (d : Point.Declaration) :
    d.form.ShownBy (some (.table d.table)) ∧
      ∀ (index : Nat) (entries : Fields), d.form.ShownBy (some (.table entries)) →
        declaration index entries = .ok d := by
  refine ⟨d.shownBy_table, fun index entries h => ?_⟩
  obtain ⟨_, ⟨⟩, hfields⟩ := Form.shownBy_record_iff.mp h
  have hkind : kind index entries = .ok d.kind :=
    kind_of_shownBy index (hfields _ List.mem_cons_self)
  have hread : ofKind? entries d.kind = some d := recovers_ofKind? d hfields
  simp only [declaration, hkind, hread]

/-- A sink whose fields are out of order, among others that no sink has. -/
theorem declaration_of_shownBy_surplus :
    declaration 3
      [("error", .table [("note", .float "1.5"), ("width", .integer 2),
          ("descriptors", .array [.text "lost", .text "late"])]),
        ("since", .dateTime (.date ⟨2024, 2, 29⟩)), ("kind", .text "Sink"),
        ("data", .table [("kind", .boolean true), ("handshake", .text "NO_READY"),
          ("width", .text "W"), ("name", .text "D")]),
        ("signals", .array [.integer (-1)]), ("reset", .text "Reset"), ("name", .text "In"),
        ("clock", .text "Clk")] =
      .ok (.sink
        { name := "In", clock := "Clk", reset := "Reset",
          data := { name := "D", width := .text "W", handshake := some "NO_READY" },
          error := some { width := .number 2, descriptors := ["lost", "late"] } }) := by
  refine (declaration_of_shownBy _).2 3 _ (.record ?_)
  simp only [Point.Declaration.fields, Endpoint.Declaration.fields, List.forall_mem_cons]
  refine ⟨.text "Sink", .text "In", .text "Clk", .text "Reset", .record ?_, .absent, .absent,
    .record ?_, List.forall_mem_nil _⟩
  · simp only [Endpoint.DataDeclaration.fields, List.forall_mem_cons]
    exact ⟨.text "D", .text "W", .absent, .text "NO_READY", List.forall_mem_nil _⟩
  · simp only [Endpoint.ErrorDeclaration.fields, List.forall_mem_cons]
    exact ⟨.number 2, .list (.cons (.text "lost") (.cons (.text "late") .nil)),
      List.forall_mem_nil _⟩

end Description.PointTable

end Interconnect

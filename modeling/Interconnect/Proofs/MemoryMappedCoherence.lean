import Interconnect.Proofs.History
import Interconnect.Proofs.Representation

/-! # Coherence of memory-mapped interfaces

A memory-mapped interface follows its declaration: the parts that are declared are there
under the declared names. There is an enable for each symbol of the data, and a burst is as
wide as declared, or else as wide as its largest count needs. A registry has only such
interfaces, whatever happened to it and to the parameters.
-/

namespace Interconnect

open Parameter (Environment Table)

namespace MemoryMapped

/-- A declared width is resolved as any field; a width that is not declared is the least for
the largest count, and at least one. -/
structure Burst.Coherent (env : Environment) (point : String) (d : BurstDeclaration)
    (b : Burst) : Prop where
  name : b.name = d.name
  maxCount : Resolved.number env point "max burst count" d.maxCount = .ok b.maxCount
  declared : ∀ raw ∈ d.width, Resolved.number env point "burst width" raw = .ok b.width
  computed : d.width = none → b.width.key = none ∧
    IsLeast {w : Nat | 1 ≤ w ∧ b.maxCount.value.toNat ≤ 2 ^ w} b.width.value.toNat ∧
    b.width.value.toNat ≤ 64

/-- The enables of the symbols of the data, one for each. -/
structure WriteSide.Enables (dataWidth symbolWidth : UInt64) (name : String) (s : Signal) :
    Prop where
  name : s.name = name
  symbol : 1 ≤ symbolWidth.toNat
  width : s.width.toNat * symbolWidth.toNat = dataWidth.toNat
  bounds : 1 ≤ s.width.toNat ∧ s.width.toNat < 2 ^ 32

structure WriteSide.Coherent (dataWidth : UInt64) (d : WriteDeclaration) (w : WriteSide) :
    Prop where
  data : w.data = d.data
  strobe : w.strobe = d.strobe
  byteEnable : Option.Rel (Enables dataWidth w.symbolWidth.value) d.byteEnable w.byteEnable

structure ReadSide.Coherent (d : ReadDeclaration) (r : ReadSide) : Prop where
  strobe : r.strobe = d.strobe
  data : r.data = d.data

/-- An interface and its declaration: the parts that are declared are there, and agree. -/
structure Coherent (env : Environment) (d : Declaration) (m : MemoryMapped) : Prop where
  name : m.name = d.name
  clock : m.clock = d.clock
  reset : m.reset = d.reset
  address : Option.Rel (fun d a => a.name = d.name) d.address m.address
  burst : Option.Rel (Burst.Coherent env d.name) d.burst m.burst
  dataWidth : 1 ≤ m.dataWidth.value.toNat
  write : Option.Rel (WriteSide.Coherent m.dataWidth.value) d.write m.write
  read : Option.Rel ReadSide.Coherent d.read m.read
  waitRequest : m.waitRequest = d.waitRequest
  readDataValid : m.readDataValid = d.readDataValid
  bridgesToMaster : m.bridgesToMaster.isSome ↔ m.role = .slave

/-- Symbols of no bits are refused before anything is divided by their width, and more
enables than 32 bits can count are refused before their number is cut. -/
structure WriteSide.Guarded (env : Environment) (point : String) (dataWidth : UInt64)
    (d : WriteDeclaration) : Prop where
  zero : ∀ s, Resolved.natural env point "symbol width" d.symbolWidth defaultSymbolWidth = .ok s →
    d.byteEnable.isSome → s.value = 0 →
    resolve env point dataWidth d = .error (.invalidWidth point "symbol width" s.render)
  wide : ∀ s, Resolved.natural env point "symbol width" d.symbolWidth defaultSymbolWidth = .ok s →
    d.byteEnable.isSome → s.value ≠ 0 → s.value.toNat ∣ dataWidth.toNat →
    2 ^ 32 ≤ dataWidth.toNat / s.value.toNat →
    resolve env point dataWidth d =
      .error (.invalidWidth point "byte enable width" (toString (dataWidth / s.value)))

variable {env : Environment} {point : String} {role : Role}

theorem Burst.isLeast_computedWidth (maxCount : UInt64) :
    IsLeast {w : Nat | 1 ≤ w ∧ maxCount.toNat ≤ 2 ^ w} (computedWidth maxCount).toNat := by
  rw [toNat_computedWidth, ← Width.toNat_ofCount]
  exact Width.isLeast_max_one fun _ => Width.ofCount_le_iff

theorem Burst.computedWidth_le (maxCount : UInt64) : (computedWidth maxCount).toNat ≤ 64 := by
  rw [toNat_computedWidth, ← Width.toNat_ofCount]
  exact Nat.max_le.mpr ⟨by decide, Width.ofCount_le maxCount⟩

theorem Burst.Resolves.coherent {d : BurstDeclaration} {b : Burst} (h : Burst.Resolves env d b) :
    b.Coherent env point d := by
  obtain ⟨hm, hw, -, -⟩ := h
  constructor
  case name => rfl
  case maxCount => exact Resolved.number_eq_ok_iff.mpr hm
  case declared =>
    rintro raw hraw
    rw [Option.mem_def.mp hraw] at hw
    exact Resolved.number_eq_ok_iff.mpr hw
  case computed =>
    intro hd
    rw [hd] at hw
    cases hw
    exact ⟨rfl, isLeast_computedWidth _, computedWidth_le _⟩

/-- The number of enables is exact: nothing is lost in the division, nor in 32 bits. -/
theorem WriteSide.ByteEnables.enables {dataWidth symbolWidth : UInt64} {name : String} {s : Signal}
    (h : ByteEnables dataWidth symbolWidth name s) (hw : dataWidth ≠ 0) :
    Enables dataWidth symbolWidth name s := by
  obtain ⟨hs, hd, hc⟩ := h
  rw [value_ne_zero_iff] at hs hw
  rw [mod_eq_zero_iff] at hd
  rw [UInt64.toNat_div] at hc
  have hcount : (dataWidth / symbolWidth).toUInt32.toNat = dataWidth.toNat / symbolWidth.toNat := by
    rw [UInt64.toNat_toUInt32, UInt64.toNat_div]
    exact Nat.mod_eq_of_lt hc
  constructor
  case name => rfl
  case symbol => exact hs
  case width => rw [hcount, Nat.div_mul_cancel hd]
  case bounds =>
    rw [hcount]
    exact ⟨Nat.div_pos (Nat.le_of_dvd hw hd) hs, hc⟩

theorem WriteSide.Resolves.coherent {dataWidth : UInt64} {d : WriteDeclaration} {w : WriteSide}
    (h : WriteSide.Resolves env dataWidth d w) (hw : dataWidth ≠ 0) : w.Coherent dataWidth d := by
  obtain ⟨-, hb, -, -⟩ := h
  exact ⟨rfl, rfl, optionRel_imp hb fun _ _ h => h.enables hw⟩

theorem WriteSide.guarded (env : Environment) (point : String) (dataWidth : UInt64)
    (d : WriteDeclaration) : Guarded env point dataWidth d where
  zero := by
    intro s hs hb hzero
    obtain ⟨name, hname⟩ := Option.isSome_iff_exists.mp hb
    simp [resolve, hs, hname, Endpoint.optionally, byteEnables, Resolved.positive, hzero, bind,
      Except.bind, Except.map]
  wide := by
    intro s hs hb hpos hd hwide
    obtain ⟨name, hname⟩ := Option.isSome_iff_exists.mp hb
    rw [← mod_eq_zero_iff] at hd
    have hlarge : ¬ dataWidth.toNat / s.value.toNat < UInt32.size := Nat.not_lt.mpr hwide
    simp [resolve, hs, hname, Endpoint.optionally, byteEnables, Resolved.positive, hpos,
      symbolCount, hd, hlarge, bind, Except.bind, Except.map]

theorem Bridging.isSome_iff {raw : Option Scalar} {r : Option (Resolved Bool)}
    (h : Bridging env raw role r) : r.isSome ↔ role = .slave := by
  cases h <;> simp

theorem Resolves.coherent {d : Declaration} {m : MemoryMapped} (h : Resolves env role d m) :
    m.Coherent env d := by
  obtain ⟨ha, hb, -, hp, hw, hr, -, hm⟩ := h
  constructor
  case name | clock | reset | waitRequest | readDataValid => rfl
  case address => exact optionRel_imp ha fun _ _ h => by cases h; rfl
  case burst => exact optionRel_imp hb fun _ _ h => h.coherent
  case dataWidth => exact value_ne_zero_iff.mp hp
  case write => exact optionRel_imp hw fun _ _ h => h.coherent hp
  case read => exact optionRel_imp hr fun _ _ h => by cases h; exact ⟨rfl, rfl⟩
  case bridgesToMaster => exact hm.isSome_iff

/-- The declaration of an interface of the role. -/
def Role.declare : Role → Declaration → Point.Declaration
  | slave, d => .slave d
  | master, d => .master d

end MemoryMapped

theorem Point.Declaration.mem_blueprints_memoryMapped_iff {d : Declaration}
    {role : MemoryMapped.Role} {d' : MemoryMapped.Declaration} :
    .memoryMapped role d' ∈ d.blueprints ↔ d = role.declare d' := by
  cases d <;> cases role <;> simp [blueprints, MemoryMapped.Role.declare, eq_comm]

namespace Registry

variable {r : Registry} {ds : List Point.Declaration} {ts : List Table} {name : String}

/-- The memory-mapped interfaces of a registry come from the declarations, and agree with
them under the tables. -/
def MemoryMappedCoherent (ds : List Point.Declaration) (ts : List Table) (r : Registry) : Prop :=
  ∀ name d m, (name, .memoryMapped d m) ∈ r.entries →
    name = d.name ∧ m.role.declare d ∈ ds ∧ ∃ t ∈ ts, m.Coherent t.environment d

theorem Reached.coherentMemoryMapped (h : Reached r ds ts) : MemoryMappedCoherent ds ts r := by
  intro name d m hm
  obtain ⟨t, ht, d', hd', b, hb, hr, hname⟩ := h.sourced _ hm
  cases hr with
  | memoryMapped hr =>
    rw [Point.Declaration.mem_blueprints_memoryMapped_iff] at hb
    subst hb
    have hcoherent := hr.coherent
    cases hr
    exact ⟨hname.symm, hd', t, ht, hcoherent⟩

/-- Whatever happens to a registry, its memory-mapped interfaces agree with their
declarations, and no division or cast is made that would lose anything. -/
theorem Reached.memoryMappedCoherent (h : Reached r ds ts) :
    MemoryMappedCoherent ds ts r ∧
      ∀ (t : Table) point dataWidth d,
        MemoryMapped.WriteSide.Guarded t.environment point dataWidth d :=
  ⟨h.coherentMemoryMapped, fun t => MemoryMapped.WriteSide.guarded t.environment⟩

/-- A slave with byte enables, and bursts as wide as their largest count needs. -/
def exampleSlave : MemoryMapped.Declaration where
  name := "Memory"
  clock := "Clk"
  reset := "Reset"
  burst := some { name := "Count", maxCount := .text "COUNT" }
  dataWidth := some (.text "WIDTH")
  write := some
    { data := "Data", strobe := "Write", symbolWidth := some (.text "SYMBOL"),
      byteEnable := some "Enable" }

/-- The parameters of the slave. -/
def slaveTable (count width symbol : UInt64) : Table :=
  Point.exampleTable
    [ Showcase.natural "COUNT" count, Showcase.natural "WIDTH" width,
      Showcase.natural "SYMBOL" symbol ]

/-- The slave is registered, and refreshed for longer bursts of wider words. It is not
elaborated with symbols of no bits. -/
def slaveRun : Registry :=
  let registered := (register {} (slaveTable 1 32 8).environment (.slave exampleSlave)).state
  let refreshed := (registered.refresh (slaveTable 129 72 9).environment).state
  (refreshed.elaborate (slaveTable 4 32 0)).state.1

theorem memoryMappedCoherent_slaveRun :
    ∃ ts, Reached slaveRun [.slave exampleSlave] ts ∧
      MemoryMappedCoherent [.slave exampleSlave] ts slaveRun ∧
      ∃ m, (slaveRun.get? "Memory").bind (·.record.memoryMapped?) = some m ∧
        m.burstWidth? = some 8 ∧ m.byteEnableWidth? = some 8 :=
  have reached : Reached slaveRun [.slave exampleSlave] _ :=
    .elaborate (.refresh (.accept (t := slaveTable 1 32 8) .empty rfl))
  ⟨_, reached, reached.memoryMappedCoherent.1, _, rfl, rfl, rfl⟩

end Registry

theorem Session.memoryMappedCoherent_run (t : Table) (os : List Operation) :
    ∃ ts, Registry.MemoryMappedCoherent ((start t).accepted os) ts ((start t).run os).points := by
  obtain ⟨ts, h⟩ := exists_reached_run t os
  exact ⟨ts, h.coherentMemoryMapped⟩

end Interconnect

import Interconnect.Proofs.Rebuild

/-! # Values that the host has supplied

Whether the host has supplied the value of a derived parameter decides only if a handshake may
be pending on it. What resolves therefore resolves to the same when the mark is taken away, and
registries of the same declarations are equal when the parameters have the same values.
-/

namespace Interconnect

open Parameter (Environment Value)
open Point (Declaration)

/-- The parameters as fields see them while the host has supplied none. -/
def Parameter.Environment.unsupplied (env : Environment) : Environment :=
  fun name => (env name).map fun r => { r with supplied := false }

variable {env env' : Environment}

namespace Resolved

@[simp] theorem ofReference?_unsupplied {α : Type} (read : Value → Option α) :
    ofReference? env.unsupplied read = ofReference? env read := by
  ext point field ref : 3
  cases ref with
  | literal | malformed => rfl
  | symbol name =>
    simp only [ofReference?, Environment.unsupplied]
    cases env name <;> rfl

@[simp] theorem natural?_unsupplied : natural? env.unsupplied = natural? env := by
  ext point field raw : 3
  rw [natural?, ofReference?_unsupplied, natural?]

@[simp] theorem flag?_unsupplied : flag? env.unsupplied = flag? env := by
  ext point field raw : 3
  rw [flag?, ofReference?_unsupplied, flag?]

@[simp] theorem number_unsupplied : number env.unsupplied = number env := by
  ext point field raw : 3
  rw [number, natural?_unsupplied, number]

@[simp] theorem natural_unsupplied : natural env.unsupplied = natural env := by
  ext point field raw default : 4
  cases raw <;> simp [natural]

@[simp] theorem flag_unsupplied : flag env.unsupplied = flag env := by
  ext point field raw default : 4
  cases raw <;> simp [flag]

end Resolved

namespace Endpoint

@[simp] theorem resolveSymbolWidth_unsupplied :
    resolveSymbolWidth env.unsupplied = resolveSymbolWidth env := by
  ext point dataWidth raw : 3
  cases raw <;> simp [resolveSymbolWidth]

@[simp] theorem Packets.resolve_unsupplied :
    Packets.resolve env.unsupplied = Packets.resolve env := by
  ext point base symbols d : 4
  simp [Packets.resolve, Packets.flag]

@[simp] theorem Channel.resolve_unsupplied :
    Channel.resolve env.unsupplied = Channel.resolve env := by
  ext point base d : 3
  simp [Channel.resolve]

@[simp] theorem ErrorSignal.resolve_unsupplied :
    ErrorSignal.resolve env.unsupplied = ErrorSignal.resolve env := by
  ext point base d : 3
  simp [ErrorSignal.resolve]

/-- A mode is read from the value alone, and a pending handshake stays pending. -/
theorem Handshake.Resolves.unsupplied {base : String} {name : Option String} {h : Handshake}
    (hr : Handshake.Resolves env base name h) : Handshake.Resolves env.unsupplied base name h := by
  have hseen {name : String} {r : Parameter.Reading} (hr : env name = some r) :
      env.unsupplied name = some { r with supplied := false } := by
    rw [Environment.unsupplied, hr, Option.map_some]
  cases hr with
  | absent => exact .absent
  | literal hm => exact .literal hm
  | symbol hm hr hv => exact .symbol hm (hseen hr) hv
  | pending hm hr hv hd => exact .pending hm (hseen hr) hv hd rfl

theorem resolve_unsupplied {direction : Direction} {d : Declaration} {e : Endpoint}
    (h : resolve env direction d = .ok e) : resolve env.unsupplied direction d = .ok e := by
  simp only [resolve, bind_eq_ok_iff, Resolved.number_unsupplied, resolveSymbolWidth_unsupplied,
    Packets.resolve_unsupplied, Channel.resolve_unsupplied, ErrorSignal.resolve_unsupplied] at h ⊢
  obtain ⟨_, hn, _, hp, _, hs, _, hc, handshake, hh, hrest⟩ := h
  rw [Handshake.resolve_eq_ok_iff] at hh
  have hh' : Handshake.resolve env.unsupplied d.name _ _ = .ok handshake :=
    Handshake.resolve_eq_ok_iff.mpr hh.unsupplied
  exact ⟨_, hn, _, hp, _, hs, _, hc, handshake, hh', hrest⟩

end Endpoint

namespace MemoryMapped

@[simp] theorem Address.resolve_unsupplied :
    Address.resolve env.unsupplied = Address.resolve env := by
  ext point d : 2
  simp [Address.resolve]

@[simp] theorem Burst.resolve_unsupplied : Burst.resolve env.unsupplied = Burst.resolve env := by
  ext point d : 2
  simp [Burst.resolve]

@[simp] theorem WriteSide.resolve_unsupplied :
    WriteSide.resolve env.unsupplied = WriteSide.resolve env := by
  ext point dataWidth d : 3
  simp [WriteSide.resolve]

@[simp] theorem ReadSide.resolve_unsupplied :
    ReadSide.resolve env.unsupplied = ReadSide.resolve env := by
  ext point d : 2
  simp [ReadSide.resolve]

@[simp] theorem bridging_unsupplied : bridging env.unsupplied = bridging env := by
  ext point raw role : 3
  cases role <;> simp [bridging]

theorem resolve_unsupplied (role : Role) (d : Declaration) :
    resolve env.unsupplied role d = resolve env role d := by
  simp [resolve]

end MemoryMapped

theorem Conduit.resolve_unsupplied (d : Conduit.Declaration) :
    resolve env.unsupplied d = resolve env d := by
  have hsignal : ConduitSignal.resolve env.unsupplied = ConduitSignal.resolve env := by
    ext point d : 2
    simp [ConduitSignal.resolve]
  rw [resolve, hsignal, resolve]

theorem Blueprint.resolve_unsupplied {b : Blueprint} {p : Point} (h : b.resolve env = .ok p) :
    b.resolve env.unsupplied = .ok p := by
  cases b with
  | clock | reset => exact h
  | endpoint direction d =>
    obtain ⟨e, he, rfl⟩ := map_eq_ok_iff.mp h
    exact map_eq_ok_iff.mpr ⟨e, Endpoint.resolve_unsupplied he, rfl⟩
  | memoryMapped role d => rwa [resolve, Point.ofMemoryMapped, MemoryMapped.resolve_unsupplied]
  | conduit d => rwa [resolve, Point.ofConduit, Conduit.resolve_unsupplied]

/-- The same declarations resolve to equal registries where the parameters have equal values
and are derived alike. -/
theorem Registry.eq_of_unsupplied_eq {ds : List Declaration} {r r' : Registry}
    (h : ofDeclarations env ds = .ok r) (h' : ofDeclarations env' ds = .ok r')
    (henv : env.unsupplied = env'.unsupplied) : r = r' := by
  have hentries : List.Forall₂ Eq r.entries r'.entries := by
    refine forall₂_of_common (forall₂_entry_of_ofDeclarations h)
      (forall₂_entry_of_ofDeclarations h') fun b _ e e' he he' => ?_
    obtain ⟨p, hp, rfl⟩ := map_eq_ok_iff.mp he
    obtain ⟨p', hp', rfl⟩ := map_eq_ok_iff.mp he'
    have hsame := Blueprint.resolve_unsupplied hp
    rw [henv, Blueprint.resolve_unsupplied hp'] at hsame
    rw [Except.ok.inj hsame]
  exact congrArg Dictionary.mk (List.forall₂_eq_eq_eq ▸ hentries)

end Interconnect

import Interconnect.Proofs.Rebuild

/-! # Symbolic fields and their parameters

A symbolic field of a record is a resolved field with a key, or the handshake of an
endpoint. The parameter that it names is therefore in the table that the record was
resolved against. A handshake moreover follows its parameter: its mode is the one that the
parameter names, and there is none only while the parameter waits for the host.
-/

namespace Interconnect

open Parameter (Environment Table)
open Point (Declaration)

/-- The entry of a field in a list of symbolic fields. -/
def Field.symbolic : Field → List (String × String)
  | number label r => r.symbolic label
  | flag label r => r.symbolic label

@[simp] theorem Resolved.mem_symbolic_iff {α : Type} {r : Resolved α} {label : String}
    {s : String × String} : s ∈ r.symbolic label ↔ s.1 = label ∧ r.key = some s.2 := by
  unfold symbolic
  cases r.key <;> simp [Prod.ext_iff, eq_comm]

theorem Field.mem_symbolic_iff {f : Field} {s : String × String} :
    s ∈ f.symbolic ↔ s.1 = f.label ∧ f.key = some s.2 := by
  cases f <;> exact Resolved.mem_symbolic_iff

theorem MemoryMapped.symbolicFields_eq (m : MemoryMapped) :
    m.symbolicFields = m.fields.flatMap Field.symbolic := by
  simp [symbolicFields, fields, Burst.fields, WriteSide.fields, ReadSide.fields, Field.symbolic,
    List.flatMap_append, List.flatMap_map, List.flatMap_assoc]

theorem Conduit.symbolicFields_eq (c : Conduit) :
    c.symbolicFields = c.fields.flatMap Field.symbolic := by
  simp [symbolicFields, fields, Field.symbolic, List.flatMap_map]

theorem Endpoint.mem_symbolicFields {d : Declaration} {e : Endpoint} {s : String × String}
    (h : s ∈ e.symbolicFields d) :
    s ∈ e.fields.flatMap Field.symbolic ∨ s.1 = "handshake" ∧ e.handshake.key = some s.2 := by
  have hfields : e.fields.flatMap Field.symbolic =
      e.dataWidth.symbolic "data width" ++ e.symbolWidth.symbolic "symbol width"
        ++ e.packets.toList.flatMap (fun p =>
            p.usePackets.symbolic "use packets"
              ++ p.useEmpty.toList.flatMap (·.symbolic "use empty"))
        ++ e.channel.toList.flatMap (fun c =>
            c.useChannel.symbolic "use channel"
              ++ c.maxChannel.toList.flatMap (·.symbolic "max channel"))
        ++ e.error.toList.flatMap (·.width.symbolic "error width") := by
    simp [fields, Packets.fields, Channel.fields, Field.symbolic, List.flatMap_append,
      List.flatMap_map, List.flatMap_assoc]
  simp only [symbolicFields, hfields, List.mem_append] at h ⊢
  rcases h with ((((hw | hs) | hh) | hp) | hc) | he
  · exact .inl (.inl (.inl (.inl (.inl hw))))
  · split at hs
    · exact .inl (.inl (.inl (.inl (.inr hs))))
    · cases hs
  · rw [Option.mem_toList, Option.map_eq_some_iff] at hh
    obtain ⟨key, hk, rfl⟩ := hh
    exact .inr ⟨rfl, hk⟩
  · exact .inl (.inl (.inl (.inr hp)))
  · exact .inl (.inl (.inr hc))
  · exact .inl (.inr he)

theorem Endpoint.Resolves.handshake {env : Environment} {direction : Direction}
    {d : Declaration} {e : Endpoint} (h : Resolves env direction d e) :
    Handshake.Resolves env d.data.name d.data.handshake e.handshake := by
  obtain ⟨-, -, -, -, hh, -⟩ := h
  exact hh

/-- The mode of a symbolic handshake is the one that the value of its parameter names. There
may be none while the parameter is derived and not supplied. -/
theorem Endpoint.Handshake.Resolves.follows {env : Environment} {base : String}
    {name : Option String} {h : Handshake} (hr : Handshake.Resolves env base name h)
    {key : String} (hk : h.key = some key) :
    ∃ r, env key = some r ∧ h.mode = r.value.text?.bind Mode.ofName? ∧
      (h.mode = none → r.derived = true ∧ r.supplied = false) := by
  cases hr with
  | absent | literal => cases hk
  | symbol _ hp hv => cases hk; exact ⟨_, hp, hv.symm, nofun⟩
  | pending _ hp hv hd hs => cases hk; exact ⟨_, hp, hv.symm, fun _ => ⟨hd, hs⟩⟩

theorem Blueprint.Resolves.exists_of_mem_symbolicFields {env : Environment} {b : Blueprint}
    {p : Point} (h : b.Resolves env p) {s : String × String} (hs : s ∈ p.symbolicFields) :
    ∃ r, env s.2 = some r := by
  have hfield (hf : s ∈ p.fields.flatMap Field.symbolic) : ∃ r, env s.2 = some r := by
    obtain ⟨f, hf, hs⟩ := List.mem_flatMap.mp hf
    obtain ⟨o, -, ho⟩ := exists_mem_of_forall₂ h.yields hf
    obtain ⟨r, hr, -⟩ := ho.value_eq (Field.mem_symbolic_iff.mp hs).2
    exact ⟨r, hr⟩
  cases h with
  | clock | reset => cases hs
  | memoryMapped h => exact hfield (MemoryMapped.symbolicFields_eq _ ▸ hs)
  | conduit h => exact hfield (Conduit.symbolicFields_eq _ ▸ hs)
  | endpoint h =>
    rcases Endpoint.mem_symbolicFields hs with hs | ⟨-, hk⟩
    · exact hfield hs
    · obtain ⟨r, hr, -⟩ := h.handshake.follows hk
      exact ⟨r, hr⟩

theorem Registry.exists_of_mem_symbolicFields {t : Table} {ds : List Declaration} {r : Registry}
    (h : ofDeclarations t.environment ds = .ok r) {s : String × String × String}
    (hs : s ∈ r.symbolicFields) : ∃ p, t.get? s.2.2 = some p := by
  obtain ⟨p, hp, hs⟩ := List.mem_flatMap.mp hs
  obtain ⟨⟨name, p⟩, he, rfl⟩ := List.mem_map.mp hp
  obtain ⟨⟨label, key⟩, hf, rfl⟩ := List.mem_map.mp hs
  obtain ⟨b, -, hb, -⟩ := (mem_entries_iff_of_ofDeclarations h).mp he
  obtain ⟨_, hr⟩ := hb.exists_of_mem_symbolicFields hf
  obtain ⟨p, hget, -⟩ := Option.map_eq_some_iff.mp hr
  exact ⟨p, hget⟩

end Interconnect

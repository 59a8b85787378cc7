import Botwright.Proofs.Compile.Acceptance

/-!
# Schema names as keys

Only the components of a document are compared when it is compiled. Its entity is distinct from
them all the same, so schema names are keys of the whole document, and a call of a topic by the
name it shows reaches the dialog of that name.
-/

namespace Botwright

namespace BotDocument

@[simp] theorem mem_dialogs (document : BotDocument) (d : Dialog) :
    d ∈ document.dialogs ↔ Component.dialog d ∈ document.components := by
  rw [dialogs, List.mem_filterMap]
  constructor
  · rintro ⟨c, hc, he⟩
    cases c with
    | dialog d' =>
      cases he
      exact hc
    | instructions i => cases he
  · intro hd
    exact ⟨.dialog d, hd, rfl⟩

/-- The schema names of the entity and of all components. -/
def allSchemaNames (document : BotDocument) : List String :=
  document.entity.schemaName :: document.schemaNames

end BotDocument

namespace Agent

variable {σ : Type} [IdSource σ] (options : Options) (agent : Agent) (s : σ)

private theorem entity_schemaName_notMem (name : String) (topics : List Topic) :
    Naming.bot options.publisher name ∉
      (agent.assemble options name topics s).1.schemaNames := by
  have hkeys : (agent.assemble options name topics s).1.schemaNames =
      ((agent.assemble options name topics s).1.components.map Component.key).map Prod.fst := by
    rw [List.map_map]
    rfl
  rw [hkeys, assemble_keys, List.map_append, List.mem_append]
  rintro (hm | hm)
  · obtain ⟨k, hk, he⟩ := List.mem_map.mp hm
    obtain ⟨text, _, rfl⟩ := Option.map_eq_some_iff.mp (Option.mem_toList.mp hk)
    exact Naming.bot_ne_instructions _ _ _ he.symm
  · rw [List.map_map] at hm
    obtain ⟨title, _, he⟩ := List.mem_map.mp hm
    exact Naming.bot_ne_topic _ _ _ he.symm

private theorem allSchemaNames_nodup (r : Compilation)
    (h : (agent.compile options s).result = .ok r) : r.document.allSchemaNames.Nodup := by
  obtain ⟨name, _, hdocument, _, hn⟩ := compile_document options agent s r h
  refine List.nodup_cons.mpr ⟨?_, hn⟩
  rw [hdocument]
  exact entity_schemaName_notMem options agent s name agent.topicList

theorem compile_dialogs (r : Compilation) (h : (agent.compile options s).result = .ok r) :
    r.document.dialogs.map Dialog.displayName = dialogTitles agent.topicList ∧
      ∀ d ∈ r.document.dialogs,
        d.schemaName = Naming.topic options.publisher d.displayName := by
  obtain ⟨name, _, hdocument, _, _⟩ := compile_document options agent s r h
  rw [hdocument, assemble_dialogs]
  refine ⟨assembledDialogs_displayName options agent name agent.topicList s, ?_⟩
  intro d hd
  exact (assembledDialogs_belong options agent name agent.topicList s d hd).1

/-- Schema names are keys of the whole document: no two of them agree, a component is found by its
own, and a dialog, of the system or of the author, by the name it shows, which is where a call of
that name leads. -/
theorem compile_schemaNames_keys (r : Compilation)
    (h : (agent.compile options s).result = .ok r) :
    r.document.allSchemaNames.Nodup ∧
      (∀ c ∈ r.document.components, r.document.component? c.schemaName = some c) ∧
      r.document.dialogs.map Dialog.displayName = dialogTitles agent.topicList ∧
      ∀ d ∈ r.document.dialogs,
        r.document.component? (Naming.topic options.publisher d.displayName) =
            some (.dialog d) ∧
          ∀ s' : σ, ∃ id target,
            (Action.node options.publisher (.callTopic d.displayName) s').1 =
                .beginDialog id target ∧
              r.document.component? target = some (.dialog d) := by
  have hnodup := allSchemaNames_nodup options agent s r h
  have htitles := compile_dialogs options agent s r h
  have hfind (c : Component) (hc : c ∈ r.document.components) :
      r.document.component? c.schemaName = some c :=
    Component.find?_schemaName _ c (List.nodup_cons.mp hnodup).2 hc
  have htitle (d : Dialog) (hd : d ∈ r.document.dialogs) :
      r.document.component? (Naming.topic options.publisher d.displayName) =
        some (.dialog d) := by
    rw [← htitles.2 d hd]
    exact hfind (.dialog d) ((BotDocument.mem_dialogs _ d).mp hd)
  refine ⟨hnodup, hfind, htitles.1, ?_⟩
  intro d hd
  refine ⟨htitle d hd, ?_⟩
  intro s'
  exact ⟨(IdSource.token s').1, _, rfl, htitle d hd⟩

/-- An agent called `topic` with instructions does not confuse the kinds of names. -/
theorem switchboard_schemaNames_keys :
    ∃ r, (switchboard.compile {} SequentialIds.fresh).result = .ok r ∧
      r.document.allSchemaNames.Nodup ∧
      (∀ c ∈ r.document.components, r.document.component? c.schemaName = some c) ∧
      r.document.dialogs.map Dialog.displayName = dialogTitles switchboard.topicList ∧
      ∀ d ∈ r.document.dialogs,
        r.document.component? (Naming.topic "af" d.displayName) = some (.dialog d) ∧
          ∀ s' : SequentialIds, ∃ id target,
            (Action.node "af" (.callTopic d.displayName) s').1 = .beginDialog id target ∧
              r.document.component? target = some (.dialog d) := by
  obtain ⟨r, hr⟩ := compile_of_acceptable SequentialIds.fresh {} switchboard
    switchboard_acceptable
  exact ⟨r, hr, compile_schemaNames_keys {} switchboard SequentialIds.fresh r hr⟩

end Agent
end Botwright

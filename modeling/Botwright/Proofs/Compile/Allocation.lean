import Botwright.Proofs.Compile.Acceptance

/-!
# The ids of a compiled document

With a sequential source every identifier of a document is told by its place: two unique
identifiers come first, then one token for each mark, depth first. No draw is skipped or wasted.
-/

namespace Botwright

namespace Allotted

private theorem drawn_eq {ms : List Mark} {s s' : SequentialIds} (h : Allotted ms s s') :
    s'.drawn = s.drawn + ms.length := by
  rw [h.source_eq, SequentialIds.after_eq, List.length_replicate]

private theorem getElem_id {ms : List Mark} {s s' : SequentialIds} (h : Allotted ms s s') (k : Nat)
    (hk : k < ms.length) : ms[k].id = idOf ms[k].stem (tokenOf (s.drawn + 1 + k)) := by
  induction h generalizing k with
  | nil s => exact absurd hk (Nat.not_lt_zero k)
  | @cons stem ms s s' _ ih =>
    cases k with
    | zero => rfl
    | succ k =>
      have hnext : (IdSource.token s).2.drawn = s.drawn + 1 := rfl
      have hid := ih k (Nat.lt_of_succ_lt_succ hk)
      rw [List.getElem_cons_succ, hid, hnext]
      congr 2
      omega

end Allotted

namespace Agent

/-- The bot and its entity take the first two numbers, every component names the bot as its parent,
and the `k`-th id, depth first, is the stem of its kind with the token of the `k`-th number after
them; the count ends there. -/
theorem compile_allocation (options : Options) (agent : Agent) (c : Nat) (r : Compilation)
    (h : (agent.compile options (⟨c⟩ : SequentialIds)).result = .ok r) :
    r.document.entity.botId = .ofNat (c + 1) ∧
      (∀ component ∈ r.document.components, component.parentBotId = .ofNat (c + 1)) ∧
      r.document.entity.componentId = .ofNat (c + 2) ∧
      r.document.ids = r.document.marks.map Mark.id ∧
      (∀ k (hk : k < r.document.marks.length),
        r.document.marks[k].id = idOf r.document.marks[k].stem (tokenOf (c + 3 + k))) ∧
      (agent.compile options (⟨c⟩ : SequentialIds)).source =
        ⟨c + 2 + r.document.ids.length⟩ := by
  obtain ⟨name, _, hdocument, hsource, _⟩ := compile_document options agent _ r h
  have hallotted := assemble_allotted options agent name agent.topicList (⟨c⟩ : SequentialIds)
  have hparent := parentBotId_of_mem_assemble options agent name agent.topicList
    (⟨c⟩ : SequentialIds)
  rw [← hdocument] at hallotted hparent
  have hids := BotDocument.map_id_marks r.document
  refine ⟨by rw [hdocument]; rfl, hparent, by rw [hdocument]; rfl, hids.symm, ?_, ?_⟩
  · intro k hk
    exact hallotted.getElem_id k hk
  · have hcount := hallotted.drawn_eq
    rw [← List.length_map Mark.id, hids] at hcount
    rw [hsource]
    exact congrArg SequentialIds.mk hcount

/-- The ids of the switchboard from a source that has numbered five draws already. -/
theorem switchboard_allocation :
    ∃ r, (switchboard.compile {} (⟨5⟩ : SequentialIds)).result = .ok r ∧
      r.document.entity.botId = .ofNat 6 ∧
      (∀ component ∈ r.document.components, component.parentBotId = .ofNat 6) ∧
      r.document.entity.componentId = .ofNat 7 ∧
      r.document.ids = r.document.marks.map Mark.id ∧
      (∀ k (hk : k < r.document.marks.length),
        r.document.marks[k].id = idOf r.document.marks[k].stem (tokenOf (8 + k))) ∧
      (switchboard.compile {} (⟨5⟩ : SequentialIds)).source =
        ⟨7 + r.document.ids.length⟩ := by
  obtain ⟨r, hr⟩ := compile_of_acceptable (⟨5⟩ : SequentialIds) {} switchboard
    switchboard_acceptable
  exact ⟨r, hr, compile_allocation {} switchboard 5 r hr⟩

end Agent
end Botwright

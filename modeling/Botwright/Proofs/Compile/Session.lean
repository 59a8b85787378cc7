import Botwright.Compile.Session
import Botwright.Proofs.Compile.Acceptance
import Botwright.Proofs.Identifier.Random

/-!
# Ids over whole sessions

Every id ends in a token of its own, and a session never goes back behind a draw, not even where a
compilation fails. So the ids of all documents of a session are distinct as long as the tokens
drawn are.
-/

namespace Botwright

open IdSource

/-- The last characters of an id, as many as a token has. -/
def idToken (id : String) : String := String.ofList (id.toList.drop (id.length - tokenLength))

private theorem idToken_idOf (stem : Option String) (token : String)
    (h : token.length = tokenLength) :
    idToken (idOf stem token) = token := by
  apply String.toList_injective
  cases stem with
  | none => simp [idToken, idOf, h]
  | some stem =>
    rw [idToken, idOf, String.toList_ofList, String.toList_append, String.length_append, h,
      Nat.add_sub_cancel, List.drop_left' (by rw [String.length_toList])]

private theorem length_of_idToken (id : String) (h : (idToken id).length = tokenLength) :
    tokenLength ≤ id.length := by
  rw [idToken, String.length_ofList, List.length_drop, String.length_toList] at h
  omega

private theorem Allotted.map_idToken {σ : Type} [IdSource σ] {ms : List Mark} {s s' : σ}
    (h : Allotted ms s s')
    (ht : ∀ t ∈ tokens (List.replicate ms.length .token) s, t.length = tokenLength) :
    (ms.map Mark.id).map idToken = tokens (List.replicate ms.length .token) s := by
  induction h with
  | nil s => rfl
  | @cons stem ms s s' _ ih =>
    have hhead := idToken_idOf stem (token s).1 (ht _ List.mem_cons_self)
    have htail := ih fun t hm => ht t (List.mem_cons_of_mem _ hm)
    rw [List.map_cons, List.map_cons, hhead, htail]
    rfl

/-- The document of a step, if it gives one. -/
def StepResult.document? : StepResult → Option BotDocument
  | .compiled (.ok r) => some r.document
  | _ => none

def returnedIds (results : List StepResult) : List String :=
  (results.filterMap StepResult.document?).flatMap BotDocument.ids

private theorem returnedIds_cons (result : StepResult) (results : List StepResult) :
    returnedIds (result :: results) = returnedIds [result] ++ returnedIds results := by
  rw [← List.singleton_append, returnedIds, List.filterMap_append, List.flatMap_append]
  rfl

/-- No id occurs twice, in one document or in two, and none is that of a trigger. -/
def GloballyUnique (results : List StepResult) : Prop :=
  (returnedIds results).Nodup ∧ triggerId ∉ returnedIds results

namespace Agent

variable {σ : Type} [IdSource σ] (options : Options) (agent : Agent) (s : σ)

private theorem compile_map_idToken (r : Compilation) (h : (agent.compile options s).result = .ok r)
    (ht : ∀ t ∈ tokens (agent.draws options) s, t.length = tokenLength) :
    r.document.ids.map idToken = tokens (agent.draws options) s := by
  obtain ⟨name, hname, husable, _, rfl⟩ := (compile_eq_ok options agent s r).mp h
  have hallotted := assemble_allotted options agent name agent.topicList s
  have hdraws : tokens (agent.draws options) s =
      tokens (List.replicate (agent.assemble options name agent.topicList s).1.marks.length
        .token) (uuid (uuid s).2).2 := by
    rw [draws_of_checkName options agent name hname, usableTopics_eq_topicList agent husable,
      length_marks_assemble]
    rfl
  rw [hdraws] at ht
  rw [hdraws, ← hallotted.map_idToken ht, BotDocument.map_id_marks]
  rfl

end Agent

namespace SessionStep

variable {σ : Type} [IdSource σ]

/-- The draws of a step, a failing compilation among them. -/
def draws : SessionStep → List Draw
  | draw kind count => List.replicate count kind
  | compile options agent => agent.draws options

@[simp] theorem run_source (step : SessionStep) (s : σ) : (step.run s).2 = after step.draws s := by
  cases step with
  | draw kind count => exact drawLast_source kind count "" s
  | compile options agent => exact agent.compile_source options s

private theorem run_ids_sublist (step : SessionStep) (s : σ)
    (ht : ∀ t ∈ tokens step.draws s, t.length = tokenLength) :
    ((returnedIds [(step.run s).1]).map idToken).Sublist (tokens step.draws s) := by
  cases step with
  | draw kind count => exact List.nil_sublist _
  | compile options agent =>
    change ((returnedIds [.compiled (agent.compile options s).result]).map idToken).Sublist _
    cases hr : (agent.compile options s).result with
    | error e => exact List.nil_sublist _
    | ok r =>
      have hids := agent.compile_map_idToken options s r hr ht
      change ((r.document.ids ++ []).map idToken).Sublist _
      rw [List.append_nil, hids]
      exact List.Sublist.refl _

@[simp] theorem runAll_source (steps : List SessionStep) (s : σ) :
    (runAll steps s).2 = after (steps.flatMap draws) s := by
  induction steps generalizing s with
  | nil => rfl
  | cons step steps ih =>
    rw [List.flatMap_cons, after_append, ← run_source]
    exact ih (step.run s).2

/-- The ids of a session carry tokens that it drew, in the order in which it drew them. -/
theorem runAll_ids_sublist (steps : List SessionStep) (s : σ)
    (ht : ∀ t ∈ tokens (steps.flatMap draws) s, t.length = tokenLength) :
    ((returnedIds (runAll steps s).1).map idToken).Sublist (tokens (steps.flatMap draws) s) := by
  induction steps generalizing s with
  | nil => exact List.nil_sublist _
  | cons step steps ih =>
    rw [List.flatMap_cons, tokens_append, ← run_source] at ht ⊢
    have hfirst := run_ids_sublist step s fun t hm => ht t (List.mem_append_left _ hm)
    have hrest := ih (step.run s).2 fun t hm => ht t (List.mem_append_right _ hm)
    change ((returnedIds ((step.run s).1 :: (runAll steps (step.run s).2).1)).map idToken).Sublist _
    rw [returnedIds_cons, List.map_append]
    exact hfirst.append hrest

/-- Distinct tokens make distinct ids, and an id that ends in a token is longer than that of a
trigger. -/
theorem globallyUnique_of_proper (steps : List SessionStep) (s : σ)
    (h : ProperTokens (tokens (steps.flatMap draws) s)) :
    GloballyUnique (runAll steps s).1 := by
  have hsub := runAll_ids_sublist steps s fun t ht => (h.2 t ht).1
  refine ⟨List.Nodup.of_map idToken (hsub.nodup h.1), ?_⟩
  intro hm
  have htoken := h.2 _ (hsub.subset (List.mem_map_of_mem hm))
  have hlen := length_of_idToken triggerId htoken.1
  exact absurd hlen (by decide)

/-- All ids returned during a session are distinct and none is that of a trigger: from any source
that gives proper tokens for the draws of the session, as a sequential one does for its first
`36 ^ 8` draws and a random one until it has issued as many tokens. -/
theorem runAll_ids_unique (steps : List SessionStep) :
    (∀ s : SequentialIds, (runAll steps s).2.drawn ≤ 36 ^ 8 →
        GloballyUnique (runAll steps s).1) ∧
      (∀ pool, (runAll steps (RandomIds.ofPool pool)).2.issued.length ≤ 36 ^ 8 →
        GloballyUnique (runAll steps (RandomIds.ofPool pool)).1) ∧
      ∀ (σ : Type) [IdSource σ] (s : σ), (runAll steps s).2 = after (steps.flatMap draws) s ∧
        (ProperTokens (tokens (steps.flatMap draws) s) → GloballyUnique (runAll steps s).1) := by
  refine ⟨?_, ?_, ?_⟩
  · intro s hs
    rw [runAll_source, SequentialIds.after_eq] at hs
    exact globallyUnique_of_proper steps s (SequentialIds.tokens_proper _ s.drawn hs)
  · intro pool hpool
    rw [runAll_source] at hpool
    exact globallyUnique_of_proper steps _ (RandomIds.tokens_ofPool_proper _ pool hpool)
  · intro σ _ s
    exact ⟨runAll_source steps s, globallyUnique_of_proper steps s⟩

def shift : List SessionStep :=
  [.draw .token 2, .compile {} Agent.switchboard, .compile {} Agent.empty, .draw .uuid 1,
    .compile {} Agent.switchboard]

/-- The shift returns ids, and they are unique on a sequential source, on a random one that reads a
value twice before its pool runs dry, and on a source known by its tokens only. -/
theorem shift_ids_unique :
    (returnedIds (runAll shift SequentialIds.fresh).1).length = 48 ∧
      (runAll shift SequentialIds.fresh).2.drawn ≤ 36 ^ 8 ∧
      GloballyUnique (runAll shift SequentialIds.fresh).1 ∧
      (runAll shift (RandomIds.ofPool [7, 7])).2.issued.length ≤ 36 ^ 8 ∧
      GloballyUnique (runAll shift (RandomIds.ofPool [7, 7])).1 ∧
      ProperTokens (tokens (shift.flatMap draws) (⟨5⟩ : SequentialIds)) ∧
      GloballyUnique (runAll shift (⟨5⟩ : SequentialIds)).1 := by
  have hsequential : (runAll shift SequentialIds.fresh).2.drawn ≤ 36 ^ 8 := by decide
  have hrandom : (runAll shift (RandomIds.ofPool [7, 7])).2.issued.length ≤ 36 ^ 8 := by
    decide +kernel
  have hproper : ProperTokens (tokens (shift.flatMap draws) (⟨5⟩ : SequentialIds)) :=
    SequentialIds.tokens_proper _ 5 (by decide)
  have hunique := runAll_ids_unique shift
  exact ⟨by decide, hsequential, hunique.1 _ hsequential, hrandom, hunique.2.1 _ hrandom, hproper,
    (hunique.2.2 SequentialIds ⟨5⟩).2 hproper⟩

end SessionStep
end Botwright

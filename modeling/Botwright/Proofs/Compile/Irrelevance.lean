import Botwright.Identifier.Random
import Botwright.Proofs.Compile.Acceptance
import Botwright.Proofs.Compile.Erasure

/-!
# Identifiers are irrelevant

A compilation never looks at what it drew. So its document without identifiers is the document that
a source of empty tokens gives, and it fails or finds what it would from any other source.
-/

namespace Botwright

/-- A source whose tokens are empty and whose unique identifiers are all the same. -/
structure BlankIds where

instance : IdSource BlankIds where
  token s := ("", s)
  uuid s := (.zero, s)

namespace SystemTopics

variable {σ : Type} [IdSource σ] (s : σ) (b : BlankIds)

private theorem send_blank (activity : Activity) :
    (send activity s).1.blank = (send activity b).1 :=
  congrArg (Node.sendActivity · none activity)
    (blankId_idOf (some "sendMessage") (IdSource.token s).1)

private theorem cancelAll_blank : (cancelAll s).1.blank = (cancelAll b).1 :=
  congrArg Node.cancelAllDialogs
    (blankId_idOf (some "cancelAllDialogs") (IdSource.token s).1)

end SystemTopics

namespace Action

variable {σ : Type} [IdSource σ] (publisher : String) (b : BlankIds)

mutual

theorem node_blank : ∀ (a : Action) (s : σ), (node publisher a s).1.blank = (node publisher a b).1
  | message text, s => SystemTopics.send_blank s b (.text text)
  | question prompt answer entity, s =>
      congrArg (Node.question · (Naming.topicVariable (resolveVariable answer)) prompt
        (resolveEntity entity)) (blankId_idOf (some "question") (IdSource.token s).1)
  | condition branches none, s => by
      have hid := blankId_idOf (some "conditionGroup") (IdSource.token s).1
      have hitems := conditionItems_blank branches (IdSource.token s).2
      exact congr_arg₂ (Node.conditionGroup · · []) hid hitems
  | condition branches (some otherwise), s => by
      have hid := blankId_idOf (some "conditionGroup") (IdSource.token s).1
      have hitems := conditionItems_blank branches (IdSource.token s).2
      have hotherwise := nodes_blank otherwise
        (conditionItems publisher branches (IdSource.token s).2).2
      exact (congr_arg₂ (Node.conditionGroup · · _) hid hitems).trans
        (congrArg (Node.conditionGroup _ _) hotherwise)
  | setVariable name value, s =>
      congrArg (Node.setVariable · (Naming.topicVariable (resolveVariable (some name))) value)
        (blankId_idOf (some "setVariable") (IdSource.token s).1)
  | callTopic _, s => rfl
  | callConnector connector operation inputs, s =>
      congrArg (Node.invokeConnector · connector operation inputs)
        (blankId_idOf (some "connector") (IdSource.token s).1)
  | callFlow flow inputs, s =>
      congrArg (Node.invokeFlow · flow inputs) (blankId_idOf (some "flow") (IdSource.token s).1)
  | generativeAnswer, s =>
      congrArg (Node.searchAndSummarize · currentTurn answerVariable)
        (blankId_idOf (some "search") (IdSource.token s).1)
  | endConversation, s =>
      congrArg Node.endConversation (blankId_idOf (some "endConversation") (IdSource.token s).1)
  | escalate, s => rfl
  | unrecognized kind _, s =>
      SystemTopics.send_blank s b (.text ("[Unknown action: " ++ kind ++ "]"))
  | malformed kind _ _, s =>
      SystemTopics.send_blank s b (.text ("[Malformed action: " ++ kind ++ "]"))

private theorem conditionItems_blank : ∀ (branches : List (Branch Action)) (s : σ),
    Node.blankItems (conditionItems publisher branches s).1 =
      (conditionItems publisher branches b).1
  | [], _ => rfl
  | ⟨predicate, actions⟩ :: rest, s => by
      have hid := blankId_idOf Node.itemStem (IdSource.token s).1
      have hactions := nodes_blank actions (IdSource.token s).2
      have hrest := conditionItems_blank rest (nodes publisher actions (IdSource.token s).2).2
      exact congr_arg₂ List.cons (congr_arg₂ (ConditionItem.mk · predicate ·) hid hactions) hrest

private theorem nodes_blank : ∀ (actions : List Action) (s : σ),
    Node.blankList (nodes publisher actions s).1 = (nodes publisher actions b).1
  | [], _ => rfl
  | a :: rest, s =>
      congr_arg₂ List.cons (node_blank a s) (nodes_blank rest (node publisher a s).2)

end
end Action

namespace SystemTopics

variable {σ : Type} [IdSource σ] (publisher name : String) (botId : Uuid) (agent : Agent) (s : σ)
  (b : BlankIds)

private theorem conversationStart_blank : (conversationStart publisher botId name agent s).1.blank =
    (conversationStart publisher .zero name agent b).1 := by
  have hmessage := send_blank s b (.lines [agent.greeting.getD (defaultStart name)])
  exact Dialog.blank_eq (congrArg (fun n => [n]) hmessage) rfl

private theorem greeting_blank :
    (greeting publisher botId agent s).1.blank = (greeting publisher .zero agent b).1 := by
  have hmessage := send_blank s b (.lines [agent.greeting.getD defaultGreeting])
  have hcancel := cancelAll_blank (IdSource.token s).2 b
  exact Dialog.blank_eq (congr_arg₂ (fun m c => [m, c]) hmessage hcancel) rfl

private theorem fallback_blank :
    (fallback publisher botId agent s).1.blank = (fallback publisher .zero agent b).1 := by
  have hgroup := blankId_idOf (some "conditionGroup") (IdSource.token s).1
  have hitem := blankId_idOf Node.itemStem (IdSource.token (IdSource.token s).2).1
  have hretry := send_blank (IdSource.token (IdSource.token s).2).2 b
    (.text (agent.fallbackMessage.getD defaultFallback))
  have hitems := congr_arg₂ (fun id n =>
    [ConditionItem.mk id ("=System.FallbackCount < " ++ toString retryLimit) [n]]) hitem hretry
  exact Dialog.blank_eq (congr_arg₂ (fun id items => [Node.conditionGroup id items
    [.beginDialog "" (Naming.topic publisher "Escalate")]]) hgroup hitems) rfl

private theorem escalate_blank :
    (escalate publisher botId agent s).1.blank = (escalate publisher .zero agent b).1 := by
  have hid := blankId_idOf (some "sendMessage") (IdSource.token s).1
  exact Dialog.blank_eq (congrArg (fun id => [Node.sendActivity id (some "Escalated")
    (.text (agent.escalationMessage.getD defaultEscalation))]) hid) rfl

private theorem goodbye_blank :
    (goodbye publisher botId s).1.blank = (goodbye publisher .zero b).1 := by
  have hmessage := send_blank s b (.text "Goodbye! Have a great day.")
  have hending := blankId_idOf (some "endConversation") (IdSource.token (IdSource.token s).2).1
  exact Dialog.blank_eq (congr_arg₂ (fun m id => [m, Node.endConversation id]) hmessage hending) rfl

private theorem thankYou_blank :
    (thankYou publisher botId s).1.blank = (thankYou publisher .zero b).1 := by
  have hmessage := send_blank s b (.text "You're welcome.")
  exact Dialog.blank_eq (congrArg (fun n => [n]) hmessage) rfl

private theorem onError_blank :
    (onError publisher botId s).1.blank = (onError publisher .zero b).1 := by
  have hmessage := send_blank s b (.text "An error has occurred. Please try again.")
  have hcancel := cancelAll_blank (IdSource.token s).2 b
  exact Dialog.blank_eq (congr_arg₂ (fun m c => [m, c]) hmessage hcancel) rfl

private theorem all_blank : (all publisher botId name agent s).1.map Dialog.blank =
    (all publisher .zero name agent b).1 :=
  congr_arg₂ List.cons (conversationStart_blank publisher name botId agent s b) <|
    congr_arg₂ List.cons (greeting_blank publisher botId agent _ b) <|
    congr_arg₂ List.cons (fallback_blank publisher botId agent _ b) <|
    congr_arg₂ List.cons (escalate_blank publisher botId agent _ b) <|
    congr_arg₂ List.cons (goodbye_blank publisher botId _ b) <|
    congr_arg₂ List.cons (thankYou_blank publisher botId _ b) <|
    congr_arg₂ List.cons (onError_blank publisher botId _ b) rfl

end SystemTopics

namespace Agent

variable {σ : Type} [IdSource σ] (b : BlankIds)

theorem dialogs_blank (publisher : String) (botId : Uuid) (topics : List Topic) (s : σ) :
    (dialogs publisher botId topics s).1.map Dialog.blank =
      (dialogs publisher .zero topics b).1 := by
  induction topics generalizing s with
  | nil => rfl
  | cons t topics ih =>
    have hnodes := Action.nodes_blank publisher b t.actionList s
    have hrest := ih (t.dialog publisher botId s).2
    refine congr_arg₂ List.cons ?_ hrest
    exact congrArg (fun actions => Dialog.ofTrigger .zero t.name (t.description.getD "")
      (Naming.topic publisher t.name) none
      (.onPhrases .onRecognizedIntent t.name t.phrases actions)) hnodes

variable (options : Options) (agent : Agent) (name : String) (topics : List Topic) (s : σ)

/-- The document of a blank source is what every other document becomes without its identifiers. -/
theorem assemble_blank :
    (agent.assemble options name topics s).1.blank = (agent.assemble options name topics b).1 := by
  have hinstructions : (assembledInstructions options agent name s).map Component.blank =
      assembledInstructions options agent name b := by
    unfold assembledInstructions
    cases agent.instructions <;> rfl
  have hdialogs : (assembledDialogs options agent name topics s).1.map Dialog.blank =
      (assembledDialogs options agent name topics b).1 := by
    rw [assembledDialogs, List.map_append, SystemTopics.all_blank _ _ _ _ _ b, dialogs_blank b]
    rfl
  have hcomponents : (agent.assemble options name topics s).1.components.map Component.blank =
      (agent.assemble options name topics b).1.components := by
    rw [assemble_eq, assemble_eq, List.map_append, hinstructions, ← hdialogs, List.map_map,
      List.map_map]
    rfl
  rw [BotDocument.blank, hcomponents]
  rfl

private theorem duplicate_congr {before before' cs cs' : List Component}
    (hbefore : before.map Component.key = before'.map Component.key)
    (hcs : cs.map Component.key = cs'.map Component.key) :
    duplicate before cs = duplicate before' cs' := by
  induction cs generalizing before before' cs' with
  | nil =>
    rw [List.map_eq_nil_iff.mp hcs.symm]
    rfl
  | cons c cs ih =>
    cases cs' with
    | nil => cases hcs
    | cons c' cs' =>
      obtain ⟨hc, hcs⟩ := List.cons.inj hcs
      have hrest : duplicate (c :: before) cs = duplicate (c' :: before') cs' :=
        ih (congr_arg₂ List.cons hc hbefore) hcs
      obtain ⟨hname, htitle⟩ := Prod.mk.inj hc
      -- the holder is found by its key, so its title is the same on both sides
      have hholder := congrArg (List.find? (·.1 == c.schemaName)) hbefore
      rw [List.find?_map, List.find?_map] at hholder
      change (before.find? (·.schemaName == c.schemaName)).map Component.key =
        (before'.find? (·.schemaName == c.schemaName)).map Component.key at hholder
      rw [duplicate, duplicate, ← hname, ← htitle]
      cases hf : before.find? (·.schemaName == c.schemaName) with
      | none =>
        rw [hf] at hholder
        rw [Option.map_eq_none_iff.mp hholder.symm]
        exact hrest
      | some holder =>
        rw [hf] at hholder
        obtain ⟨holder', hf', hkey⟩ := Option.map_eq_some_iff.mp hholder.symm
        rw [hf']
        have htitle : holder.displayName = holder'.displayName := (congrArg Prod.snd hkey).symm
        simp only [htitle]

end Agent

def Compilation.blank (r : Compilation) : Compilation := { r with document := r.document.blank }

namespace Agent

private theorem conclude_blank (options : Options) (agent : Agent) (name : String)
    (document : BotDocument) (j : Journal) :
    agent.conclude options name document.blank j =
      ((agent.conclude options name document j).1.blank,
        (agent.conclude options name document j).2) := by
  have hcheck : finalCheck options document.blank = finalCheck options document := by
    simp [finalCheck, document.blank.inspect_eq, document.inspect_eq]
  have hlength : document.blank.components.length = document.components.length :=
    List.length_map _
  rw [conclude, conclude, hcheck, hlength]
  rfl

variable {σ : Type} [IdSource σ]

/-- A blank source gives what is left of any other compilation, and the same journal. -/
theorem compile_blank (options : Options) (agent : Agent) (s : σ) (b : BlankIds) :
    (agent.compile options s).result.map Compilation.blank = (agent.compile options b).result ∧
      (agent.compile options s).journal = (agent.compile options b).journal := by
  cases hname : agent.checkName options with
  | error e =>
    rw [compile_of_checkName_error options agent s e hname,
      compile_of_checkName_error options agent b e hname]
    exact ⟨rfl, rfl⟩
  | ok name =>
    rw [compile_of_checkName options agent s name hname,
      compile_of_checkName options agent b name hname]
    have hkeys := (assemble_keys options agent name agent.usableTopics s).trans
      (assemble_keys options agent name agent.usableTopics b).symm
    have hduplicate : duplicate [] (agent.assemble options name agent.usableTopics s).1.components =
        duplicate [] (agent.assemble options name agent.usableTopics b).1.components :=
      duplicate_congr rfl hkeys
    have hdocument := assemble_blank b options agent name agent.usableTopics s
    dsimp only
    rw [← hduplicate, ← hdocument, conclude_blank]
    split
    · exact ⟨rfl, rfl⟩
    · split <;> exact ⟨rfl, rfl⟩

/-- From any two sources an agent is refused for the same reason, or compiled with the same
diagnostics, for the same cloud and to documents of which the same is left once their identifiers
are erased, and nothing else is erased. -/
theorem compile_ids_irrelevant {τ : Type} [IdSource τ] (options : Options) (agent : Agent) (s : σ)
    (t : τ) :
    (match (agent.compile options s).result, (agent.compile options t).result with
      | .error e, .error e' => e = e'
      | .ok r, .ok r' => r.diagnostics = r'.diagnostics ∧ r.cloud = r'.cloud ∧
          r.document.blank = r'.document.blank
      | _, _ => False) ∧
    (agent.compile options s).journal = (agent.compile options t).journal ∧
    ∀ d e : BotDocument, d.blank = e.blank → d.entity.botId = e.entity.botId →
      d.entity.componentId = e.entity.componentId →
      d.components.map Component.parentBotId = e.components.map Component.parentBotId →
      d.ids = e.ids → d = e := by
  obtain ⟨hresult, hjournal⟩ := compile_blank options agent s ⟨⟩
  obtain ⟨hresult', hjournal'⟩ := compile_blank options agent t ⟨⟩
  refine ⟨?_, hjournal.trans hjournal'.symm, fun d e => BotDocument.eq_of_blank⟩
  have hsame := hresult.trans hresult'.symm
  cases hr : (agent.compile options s).result with
  | error e =>
    cases hr' : (agent.compile options t).result with
    | error e' =>
      rw [hr, hr'] at hsame
      exact Except.error.inj hsame
    | ok r' =>
      rw [hr, hr'] at hsame
      cases hsame
  | ok r =>
    cases hr' : (agent.compile options t).result with
    | error e' =>
      rw [hr, hr'] at hsame
      cases hsame
    | ok r' =>
      rw [hr, hr'] at hsame
      have hblank := Except.ok.inj hsame
      have hdiagnostics := congrArg Compilation.diagnostics hblank
      have hcloud := congrArg Compilation.cloud hblank
      have hdocument := congrArg Compilation.document hblank
      exact ⟨hdiagnostics, hcloud, hdocument⟩

/-- From a count and from a dry pool the same bot is compiled under different identifiers. -/
theorem switchboard_ids_irrelevant :
    ∃ r r', (switchboard.compile {} (⟨5⟩ : SequentialIds)).result = .ok r ∧
      (switchboard.compile {} (RandomIds.ofPool [])).result = .ok r' ∧
      r.document.entity.botId ≠ r'.document.entity.botId ∧
      r.diagnostics = r'.diagnostics ∧ r.document.blank = r'.document.blank := by
  obtain ⟨r, hr⟩ := compile_of_acceptable (⟨5⟩ : SequentialIds) {} _ switchboard_acceptable
  obtain ⟨r', hr'⟩ := compile_of_acceptable (RandomIds.ofPool []) {} _ switchboard_acceptable
  have hirrelevant := compile_ids_irrelevant {} switchboard (⟨5⟩ : SequentialIds)
    (RandomIds.ofPool [])
  rw [hr, hr'] at hirrelevant
  obtain ⟨⟨hdiagnostics, _, hblank⟩, _⟩ := hirrelevant
  obtain ⟨name, _, hdocument, _⟩ := compile_document {} switchboard _ r hr
  obtain ⟨name', _, hdocument', _⟩ := compile_document {} switchboard _ r' hr'
  have hdifferent : r.document.entity.botId ≠ r'.document.entity.botId := by
    rw [hdocument, hdocument', assemble_eq, assemble_eq]
    change Uuid.ofNat 6 ≠ Uuid.ofRandom 0
    decide
  exact ⟨r, r', hr, hr', hdifferent, hdiagnostics, hblank⟩

end Agent
end Botwright

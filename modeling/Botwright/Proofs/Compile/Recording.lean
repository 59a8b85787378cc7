import Botwright.Compile.Document

/-!
# What a recording adds

A recording adds to what is there and reads none of it, so what it leaves in an empty journal is
what it adds to any other. Recordings behind each other add one behind the other. Up to the check of
its document a compilation is such a recording.
-/

namespace Botwright

namespace Recording

/-- What a recording leaves in an empty journal. -/
def written (p : Recording Unit) : Journal := (p .empty).2

/-- A recording adds the same to every journal. -/
def Adds (p : Recording Unit) : Prop := ∀ j, p j = ((), j ++ written p)

theorem adds_pure : Adds (pure ()) := fun j => congrArg (Prod.mk ()) j.append_empty.symm

theorem adds_log (e : LogEvent) : Adds (log e) := fun j =>
  congrArg (Prod.mk ()) (Journal.ext (List.append_nil j.diagnostics).symm rfl)

theorem adds_report (context : String) (f : Finding) : Adds (report context f) := fun j =>
  congrArg (Prod.mk ()) (Journal.ext rfl (List.append_nil j.events).symm)

@[simp] theorem written_pure : written (pure ()) = .empty := rfl

@[simp] theorem written_log (e : LogEvent) : written (log e) = ⟨[], [e]⟩ := rfl

@[simp] theorem written_report (context : String) (f : Finding) :
    written (report context f) = ⟨[f.diagnostic context], []⟩ := rfl

theorem written_bind (p : Recording Unit) {q : Recording Unit} (hq : Adds q) :
    written (do p; q) = written p ++ written q :=
  congrArg Prod.snd (hq (written p))

theorem Adds.bind {p q : Recording Unit} (hp : Adds p) (hq : Adds q) : Adds (do p; q) := by
  intro j
  change q (p j).2 = _
  rw [hp j, hq, written_bind p hq, Journal.append_assoc]

theorem adds_progress (p : Progress) : Adds (progress p) := adds_log p.event

theorem Adds.unless {p : Recording Unit} (hp : Adds p) (c : Prop) [Decidable c] :
    Adds (unless c do p) := by
  split
  · exact adds_pure
  · exact hp

/-- A recovery warns in the log and then reports. -/
@[simp] theorem written_recovery (message : String) (fields : List (String × FieldValue))
    (context : String) (f : Finding) :
    written (do warn message fields; report context f) =
      ⟨[f.diagnostic context], [⟨.warn, message, fields⟩]⟩ := rfl

theorem written_recovery_unless {p : Prop} [Decidable p] {b : Bool} (h : b = true ↔ p)
    (message : String) (fields : List (String × FieldValue)) (context : String) (f : Finding) :
    written (unless b do warn message fields; report context f) =
      if p then .empty else ⟨[f.diagnostic context], [⟨.warn, message, fields⟩]⟩ := by
  by_cases hp : p
  · rw [if_pos hp, if_pos (h.mpr hp), written_pure]
  · rw [if_neg hp, if_neg (mt h.mp hp), written_recovery]

private theorem adds_recovery {message : String} {fields : List (String × FieldValue)}
    {context : String} {f : Finding} : Adds (do warn message fields; report context f) :=
  (adds_log _).bind (adds_report context f)

theorem adds_forM {α : Type} {f : α → Recording Unit} (hf : ∀ a, Adds (f a)) (l : List α) :
    Adds (forM l f) := by
  induction l with
  | nil => exact adds_pure
  | cons a l ih =>
    rw [List.forM_cons]
    exact (hf a).bind ih

theorem view_written_forM {α β : Type} {view : Journal → List β} (hempty : view .empty = [])
    (happend : ∀ j later, view (j ++ later) = view j ++ view later) {f : α → Recording Unit}
    (hf : ∀ a, Adds (f a)) (l : List α) :
    view (written (forM l f)) = l.flatMap fun a => view (written (f a)) := by
  induction l with
  | nil => exact hempty
  | cons a l ih =>
    simp [written_bind (f a) (adds_forM hf l), happend, ih]

theorem diagnostics_written_forM {α : Type} {f : α → Recording Unit} (hf : ∀ a, Adds (f a))
    (l : List α) :
    (written (forM l f)).diagnostics = l.flatMap fun a => (written (f a)).diagnostics :=
  view_written_forM rfl Journal.diagnostics_append hf l

end Recording

open Recording

namespace Action

private theorem adds_recordVariable (path : String) (name : Option String) :
    Adds (recordVariable path name) := by
  cases name with
  | none => exact adds_pure
  | some name => exact adds_recovery.unless _

theorem adds_recordEntity (path : String) (tag : Option String) :
    Adds (recordEntity path tag) := by
  cases tag with
  | none => exact adds_pure
  | some tag => exact adds_recovery.unless _

theorem adds_recordFaults (path : String) (a : Action) : Adds (a.recordFaults path) := by
  cases a with
  | unrecognized kind fields => exact adds_recovery
  | malformed kind fields reason => exact adds_recovery
  | question prompt answer entity =>
    exact (adds_recordVariable path answer).bind (adds_recordEntity path entity)
  | setVariable name value => exact adds_recordVariable path (some name)
  | _ => exact adds_pure

private theorem adds_announce (path : String) (a : Action) : Adds (a.announce path) := by
  rw [announce]
  split
  · exact adds_progress _
  · exact adds_pure

theorem adds_recordOwn (path : String) (a : Action) : Adds (a.recordOwn path) :=
  (adds_announce path a).bind (adds_recordFaults path a)

mutual

theorem adds_record (path : String) (a : Action) : Adds (a.record path) := by
  cases a with
  | condition branches otherwise =>
    cases otherwise with
    | none => exact (adds_recordOwn path _).bind (adds_recordBranches path 0 branches)
    | some otherwise =>
      exact (adds_recordOwn path _).bind
        ((adds_recordBranches path 0 branches).bind (adds_recordList _ 0 otherwise))
  | _ => exact adds_recordOwn path _

private theorem adds_recordBranches (path : String) (index : Nat)
    (branches : List (Branch Action)) :
    Adds (recordBranches path index branches) := by
  cases branches with
  | nil => exact adds_pure
  | cons branch rest =>
    obtain ⟨condition, actions⟩ := branch
    exact (adds_recordList _ 0 actions).bind (adds_recordBranches path (index + 1) rest)

private theorem adds_recordList (path : String) (index : Nat) (l : List Action) :
    Adds (recordList path index l) := by
  cases l with
  | nil => exact adds_pure
  | cons a rest => exact (adds_record _ a).bind (adds_recordList path (index + 1) rest)

end
end Action

theorem Topic.adds_record (publisher : String) (t : Topic) : Adds (t.record publisher) :=
  (Action.adds_recordList _ 0 t.actionList).bind (adds_progress _)

namespace Agent

private theorem adds_recordCloud (options : Options) (agent : Agent) :
    Adds (agent.recordCloud options) :=
  adds_recovery.unless _

private theorem adds_recordTopics (publisher : String) (topics : List Topic) :
    Adds (forM topics (Topic.record publisher)) :=
  adds_forM (Topic.adds_record publisher) topics

theorem written_recordAssembly (options : Options) (agent : Agent) (name : String)
    (topics : List Topic) :
    written (agent.recordAssembly options name topics) =
      written agent.recordLanguage ++ (written (agent.recordCloud options) ++
        (written (progress (.assembling name (Naming.bot options.publisher name))) ++
          written (forM topics (Topic.record options.publisher)))) := by
  have htopics := adds_recordTopics options.publisher topics
  have hassembling := adds_progress (.assembling name (Naming.bot options.publisher name))
  rw [recordAssembly, written_bind _ ((agent.adds_recordCloud options).bind
    (hassembling.bind htopics)), written_bind _ (hassembling.bind htopics), written_bind _ htopics]

end Agent
end Botwright

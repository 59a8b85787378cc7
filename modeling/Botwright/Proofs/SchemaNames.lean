import Botwright.Naming
import Mathlib.Data.List.Nodup

/-!
# Schema names of different kinds

A sanitised name holds no underscore, so the number of underscores behind the publisher's name
tells the kind of a schema name. Names of different kinds never agree, whatever the publisher and
the author wrote, and topics share a schema name exactly when they share their usable characters.
-/

namespace Botwright.Naming

def underscores (s : String) : Nat := s.toList.count '_'

@[simp] theorem underscores_append (s t : String) :
    underscores (s ++ t) = underscores s + underscores t := by
  simp [underscores]

private theorem toList_sanitizeSchema (name : String) :
    (sanitizeSchema name).toList = name.toList.filter isAlphanumeric :=
  String.toList_ofList

theorem isAlphanumeric_of_mem_sanitizeSchema (name : String) (c : Char)
    (hc : c ∈ (sanitizeSchema name).toList) : isAlphanumeric c = true := by
  rw [toList_sanitizeSchema] at hc
  exact (List.mem_filter.mp hc).2

theorem sanitizeSchema_eq_empty_iff (name : String) :
    sanitizeSchema name = "" ↔ ∀ c ∈ name.toList, isAlphanumeric c = false := by
  rw [← String.toList_eq_nil_iff, toList_sanitizeSchema, List.filter_eq_nil_iff]
  simp only [Bool.not_eq_true]

@[simp] theorem underscores_sanitizeSchema (name : String) :
    underscores (sanitizeSchema name) = 0 := by
  apply List.count_eq_zero.mpr
  intro h
  have hu := isAlphanumeric_of_mem_sanitizeSchema name '_' h
  exact absurd hu (by decide)

@[simp] theorem underscores_bot (publisher agent : String) :
    underscores (bot publisher agent) = underscores publisher + 1 := by
  simp only [bot, underscores_append, underscores_sanitizeSchema]
  rfl

@[simp] theorem underscores_topic (publisher name : String) :
    underscores (topic publisher name) = underscores publisher + 2 := by
  simp only [topic, underscores_append, underscores_sanitizeSchema]
  rfl

@[simp] theorem underscores_instructions (publisher agent : String) :
    underscores (instructions publisher agent) = underscores publisher + 3 := by
  simp only [instructions, underscores_append, underscores_sanitizeSchema]
  rfl

theorem bot_ne_topic (publisher agent name : String) :
    bot publisher agent ≠ topic publisher name := by
  intro h
  have hu := congrArg underscores h
  rw [underscores_bot, underscores_topic] at hu
  omega

theorem bot_ne_instructions (publisher agent other : String) :
    bot publisher agent ≠ instructions publisher other := by
  intro h
  have hu := congrArg underscores h
  rw [underscores_bot, underscores_instructions] at hu
  omega

/-- An agent called `topic` does not change this: its instructions have one underscore more. -/
theorem instructions_ne_topic (publisher agent name : String) :
    instructions publisher agent ≠ topic publisher name := by
  intro h
  have hu := congrArg underscores h
  rw [underscores_instructions, underscores_topic] at hu
  omega

@[simp] theorem topic_inj (publisher a b : String) :
    topic publisher a = topic publisher b ↔ sanitizeSchema a = sanitizeSchema b := by
  constructor
  · intro h
    have hl := congrArg String.toList h
    simp only [topic, String.toList_append, List.append_right_inj] at hl
    exact String.toList_injective hl
  · intro h
    rw [topic, topic, h]

theorem nodup_map_topic (publisher : String) (names : List String) :
    (names.map (topic publisher)).Nodup ↔ (names.map sanitizeSchema).Nodup := by
  induction names with
  | nil => simp
  | cons name names ih =>
    simp [ih]

theorem isPublisher_iff (publisher : String) :
    isPublisher publisher = true ↔
      publisher ≠ "" ∧ ∀ c ∈ publisher.toList, isAlphanumeric c = true := by
  simp [isPublisher]

end Botwright.Naming

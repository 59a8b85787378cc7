import Botwright.Template.Writer
import Botwright.Yaml.Printer
import Mathlib.Data.List.Basic

/-!
# The text of a template

A template begins with its kind, its environment and the name that its bot shows, in front of all
identifiers. So templates of bots with other names are other texts, whatever identifiers were drawn.
-/

namespace Botwright

private theorem Yaml.entries_cons {key : String} (hkey : isSimpleKey key = true) (indent : Nat)
    (lead : List Char) (v : Json) (rest : List (String × Json)) :
    entries indent lead ((key, v) :: rest) =
      (lead ++ write (indent + 2) key ++ [':']) ++
        (afterKey indent v ++ entries indent (spaces indent) rest) := by
  rw [entries, if_pos hkey]
  simp

private theorem Yaml.afterKey_object (indent : Nat) (field : String × Json)
    (rest : List (String × Json)) :
    afterKey indent (.object (field :: rest)) =
      ['\n'] ++ entries (indent + 2) (spaces (indent + 2)) (field :: rest) := rfl

namespace BotDocument

/-- The fields of a document up to the name that its bot shows. -/
theorem exists_toList_print (d : BotDocument) :
    ∃ rest after, (Yaml.print d.toJson).toList =
      Yaml.entries 0 [] (("kind", .string d.kind) :: ("environmentId", .string d.environmentId) ::
        ("entity", .object (("managedProperties", customizableToJson d.entity.customizable) ::
          ("displayName", .string d.entity.displayName) :: rest)) :: after) :=
  ⟨_, _, String.toList_ofList⟩

theorem displayName_of_print_eq {d d' : BotDocument} (hkind : d.kind = d'.kind)
    (henvironment : d.environmentId = d'.environmentId)
    (hcustomizable : d.entity.customizable = d'.entity.customizable)
    (h : Yaml.print d.toJson = Yaml.print d'.toJson) :
    ∃ rest rest', Yaml.afterKey 2 (.string d.entity.displayName) ++ rest =
      Yaml.afterKey 2 (.string d'.entity.displayName) ++ rest' := by
  obtain ⟨rest, after, htext⟩ := exists_toList_print d
  obtain ⟨rest', after', htext'⟩ := exists_toList_print d'
  rw [h, htext', hkind, henvironment, hcustomizable] at htext
  have hkeys : ∀ key ∈ ["kind", "environmentId", "entity", "managedProperties", "displayName"],
      Yaml.isSimpleKey key = true := by decide +kernel
  simp only [List.forall_mem_cons] at hkeys
  obtain ⟨hkindKey, henvironmentKey, hentityKey, hpropertiesKey, hnameKey, _⟩ := hkeys
  simp only [Yaml.entries_cons hkindKey, Yaml.entries_cons henvironmentKey,
    Yaml.entries_cons hentityKey, Yaml.afterKey_object, Yaml.entries_cons hpropertiesKey,
    Yaml.entries_cons hnameKey, List.append_assoc, List.append_cancel_left_eq] at htext
  exact ⟨_, _, htext.symm⟩

end BotDocument
end Botwright

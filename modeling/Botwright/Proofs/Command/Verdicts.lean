import Botwright.Command.Report
import Mathlib.Data.List.Forall2

/-!
# How specifications fared

Of the lines that a command prints, those with one of two marks say how a specification fared. A
report has one such line, and so a command prints one for each of its specifications, in order, and
ends well if none of them tells of a failure.
-/

namespace Botwright

namespace CommandLine

def passedMark : String := "  ok    "

def failedMark : String := "  FAIL  "

/-- A printed text begins with a mark. -/
def bears (mark line : String) : Bool := mark.toList.isPrefixOf line.toList

def isVerdictText (line : String) : Bool := bears passedMark line || bears failedMark line

private theorem bears_append (mark path rest : String) :
    bears mark (mark ++ path ++ rest) = true := by
  rw [bears, List.isPrefixOf_iff_prefix, String.append_assoc, String.toList_append]
  exact List.prefix_append _ _

private theorem bears_eq_false {mark line : String} {c d : Char} (hmark : mark.toList[2]? = some c)
    (hline : line.toList[2]? = some d) (h : c ≠ d) : bears mark line = false := by
  rw [bears, ← Bool.not_eq_true, List.isPrefixOf_iff_prefix]
  rintro ⟨rest, hrest⟩
  rw [← hrest] at hline
  have hlength : 2 < mark.toList.length := (List.getElem?_eq_some_iff.mp hmark).1
  rw [List.getElem?_append_left hlength, hmark] at hline
  exact h (Option.some.inj hline)

theorem isVerdictText_eq_false {line : String} {c : Char} (hline : line.toList[2]? = some c)
    (hpassed : 'o' ≠ c) (hfailed : 'F' ≠ c) : isVerdictText line = false := by
  rw [isVerdictText, bears_eq_false (by decide : passedMark.toList[2]? = some 'o') hline hpassed,
    bears_eq_false (by decide : failedMark.toList[2]? = some 'F') hline hfailed]
  rfl

private theorem getElem?_toList_append {text : String} {i : Nat} {c : Char}
    (h : text.toList[i]? = some c) (rest : String) : (text ++ rest).toList[i]? = some c := by
  have hlength : i < text.toList.length := (List.getElem?_eq_some_iff.mp h).1
  rw [String.toList_append, List.getElem?_append_left hlength, h]

def isDetail : CommandLine → Bool
  | event _ => true
  | remark _ => true
  | violation _ => true
  | _ => false

theorem isVerdictText_of_isDetail {line : CommandLine} (h : line.isDetail = true) :
    isVerdictText line.text = false := by
  cases line with
  | event e =>
    obtain ⟨c, hthird, hpassed, hfailed⟩ : ∃ c,
        (" " ++ LogEvent.padded e.level.name).toList[2]? = some c ∧ 'o' ≠ c ∧ 'F' ≠ c := by
      cases e.level with
      | debug => exact ⟨'E', by decide, by decide, by decide⟩
      | info => exact ⟨'I', by decide, by decide, by decide⟩
      | warn => exact ⟨'W', by decide, by decide, by decide⟩
    apply isVerdictText_eq_false _ hpassed hfailed
    have htext : (event e).text =
        " " ++ LogEvent.padded e.level.name ++ " " ++ e.message ++ _ := rfl
    rw [htext, String.append_assoc, String.append_assoc]
    exact getElem?_toList_append hthird _
  | remark d =>
    apply isVerdictText_eq_false (c := ' ') _ (by decide) (by decide)
    have htext : (remark d).text = "        " ++ severityLabel d.severity ++ ": " ++ d.context ++
      " [" ++ d.code ++ "]: " ++ d.message := rfl
    rw [htext]
    simp only [String.append_assoc]
    exact getElem?_toList_append (by decide) _
  | violation v =>
    apply isVerdictText_eq_false (c := ' ') _ (by decide) (by decide)
    exact getElem?_toList_append (by decide) _
  | _ => cases h

/-- The line says how the specification fared, and so does the flag. -/
def IsOn (path : String) (ok : Bool) : CommandLine → Prop
  | passed p _ => p = path ∧ ok = true
  | failed p _ => p = path ∧ ok = false
  | _ => False

/-- The text says how the specification fared. -/
def VerdictOn (path line : String) : Prop :=
  ∃ rest, line = passedMark ++ path ++ rest ∨ line = failedMark ++ path ++ rest

section IsOn

variable {path : String} {ok : Bool} {line : CommandLine}

theorem IsOn.isShown (h : line.IsOn path ok) {filter : LogFilter} :
    line.isShown filter = true := by
  cases line with
  | event e => cases h
  | _ => rfl

private theorem IsOn.text_eq (h : line.IsOn path ok) :
    ∃ rest, line.text = (if ok then passedMark else failedMark) ++ path ++ rest := by
  cases line with
  | passed p destination =>
    obtain ⟨rfl, rfl⟩ := h
    cases destination with
    | none => exact ⟨"", String.append_empty.symm⟩
    | some target => exact ⟨" -> " ++ target, String.append_assoc⟩
  | failed p reason =>
    obtain ⟨rfl, rfl⟩ := h
    cases reason with
    | none => exact ⟨"", String.append_empty.symm⟩
    | some reason => exact ⟨": " ++ reason.message, String.append_assoc⟩
  | _ => cases h

private theorem IsOn.verdictOn (h : line.IsOn path ok) : VerdictOn path line.text := by
  obtain ⟨rest, hrest⟩ := h.text_eq
  cases ok with
  | true => exact ⟨rest, Or.inl hrest⟩
  | false => exact ⟨rest, Or.inr hrest⟩

private theorem IsOn.bears_failedMark (h : line.IsOn path ok) :
    bears failedMark line.text = !ok := by
  obtain ⟨rest, hrest⟩ := h.text_eq
  cases ok with
  | true =>
    have hthird : line.text.toList[2]? = some 'o' := by
      rw [hrest]
      exact getElem?_toList_append (getElem?_toList_append (by decide) path) rest
    exact bears_eq_false (by decide : failedMark.toList[2]? = some 'F') hthird (by decide)
  | false =>
    rw [hrest]
    exact bears_append failedMark path rest

theorem IsOn.isVerdictText (h : line.IsOn path ok) : isVerdictText line.text = true := by
  obtain ⟨rest, hrest⟩ := h.text_eq
  rw [CommandLine.isVerdictText, hrest]
  cases ok with
  | true => exact Bool.or_eq_true_iff.mpr (Or.inl (bears_append passedMark path rest))
  | false => exact Bool.or_eq_true_iff.mpr (Or.inr (bears_append failedMark path rest))

end IsOn
end CommandLine

namespace Command

open CommandLine

/-! ## Reports -/

/-- A report says once how its specification fared, and else tells details. -/
structure Report.IsOn (path : String) (report : Report) : Prop where
  intro ::
  lines : ∃ before verdict after, report.lines = before ++ verdict :: after ∧
    verdict.IsOn path report.ok ∧ ∀ line ∈ before ++ after, line.isDetail = true

/-- What is printed of how specifications fared. -/
def verdictTexts (filter : LogFilter) (lines : List CommandLine) : List String :=
  ((lines.filter (·.isShown filter)).map text).filter isVerdictText

section VerdictTexts

variable {filter : LogFilter} {lines : List CommandLine}

@[simp] theorem verdictTexts_append (filter : LogFilter) (lines more : List CommandLine) :
    verdictTexts filter (lines ++ more) =
      verdictTexts filter lines ++ verdictTexts filter more := by
  simp [verdictTexts]

private theorem verdictTexts_eq_nil (h : ∀ line ∈ lines, isVerdictText line.text = false) :
    verdictTexts filter lines = [] := by
  rw [verdictTexts, List.filter_eq_nil_iff]
  intro printed hprinted
  obtain ⟨line, hline, rfl⟩ := List.mem_map.mp hprinted
  rw [h line (List.mem_of_mem_filter hline)]
  exact Bool.false_ne_true

private theorem verdictTexts_of_isVerdictText {line : CommandLine}
    (hshown : line.isShown filter = true) (h : isVerdictText line.text = true) :
    verdictTexts filter [line] = [line.text] := by
  rw [verdictTexts, List.filter_cons_of_pos (by exact hshown), List.filter_nil, List.map_singleton,
    List.filter_cons_of_pos h, List.filter_nil]

private theorem bears_failedMark_eq_false {line : String} (h : isVerdictText line = false) :
    bears failedMark line = false := (Bool.or_eq_false_iff.mp h).2

end VerdictTexts

namespace Report.IsOn

variable {path : String} {report : Report}

private theorem verdictTexts_eq (h : report.IsOn path) (filter : LogFilter) :
    ∃ line, verdictTexts filter report.lines = [line] ∧ VerdictOn path line ∧
      bears failedMark line = !report.ok := by
  obtain ⟨before, verdict, after, hlines, hverdict, hdetails⟩ := h.lines
  have hquiet {part : List CommandLine} (hsub : part ⊆ before ++ after) :
      verdictTexts filter part = [] :=
    verdictTexts_eq_nil fun line hline => isVerdictText_of_isDetail (hdetails line (hsub hline))
  refine ⟨verdict.text, ?_, hverdict.verdictOn, hverdict.bears_failedMark⟩
  rw [hlines, List.append_cons, verdictTexts_append, verdictTexts_append,
    hquiet (List.subset_append_left before after), hquiet (List.subset_append_right before after),
    verdictTexts_of_isVerdictText hverdict.isShown hverdict.isVerdictText]
  rfl

end Report.IsOn

/-! ## Commands -/

/-- A command says of each of its specifications how it fared, in their order, and ends well if and
only if it tells of no failure. -/
structure Orderly (specs : List String) (result : CommandResult) : Prop where
  verdicts : ∀ filter,
    List.Forall₂ VerdictOn specs ((result.output filter).filter isVerdictText)
  status : ∀ filter,
    result.status = 0 ↔ ∀ line ∈ result.output filter, bears failedMark line = false

/-- One text is printed for each report, with the mark of a failure if the report tells of one. -/
theorem verdictTexts_reports {specs : List String} {reports : List Report}
    (h : List.Forall₂ Report.IsOn specs reports) (filter : LogFilter) :
    List.Forall₂ VerdictOn specs (verdictTexts filter (reports.flatMap (·.lines))) ∧
      ((∀ line ∈ verdictTexts filter (reports.flatMap (·.lines)), bears failedMark line = false) ↔
        reports.all (·.ok) = true) := by
  induction h with
  | nil => exact ⟨.nil, by simp [verdictTexts]⟩
  | @cons spec report specs reports hreport _ ih =>
    obtain ⟨line, hline, hverdict, hmark⟩ := hreport.verdictTexts_eq filter
    have hall : verdictTexts filter ((report :: reports).flatMap (·.lines)) =
        line :: verdictTexts filter (reports.flatMap (·.lines)) := by
      simp [hline]
    rw [hall]
    refine ⟨.cons hverdict ih.1, ?_⟩
    simp [ih.2, hmark]

@[simp] theorem status_conclude (before : List CommandLine) (reports : List Report) :
    (conclude before reports).status = 0 ↔ reports.all (·.ok) = true := by
  rw [conclude, CommandResult.status]
  cases reports.all (·.ok) <;> simp

theorem orderly_conclude {before : List CommandLine} {specs : List String} {reports : List Report}
    (hbefore : ∀ line ∈ before, isVerdictText line.text = false)
    (h : List.Forall₂ Report.IsOn specs reports) : Orderly specs (conclude before reports) := by
  have houtput (filter : LogFilter) :
      ((conclude before reports).output filter).filter isVerdictText =
        verdictTexts filter (reports.flatMap (·.lines)) := by
    have hsplit := verdictTexts_append filter before (reports.flatMap (·.lines))
    rw [verdictTexts_eq_nil hbefore] at hsplit
    exact hsplit
  refine ⟨fun filter => ?_, fun filter => ?_⟩
  · rw [houtput]
    exact (verdictTexts_reports h filter).1
  · rw [status_conclude, ← (verdictTexts_reports h filter).2, ← houtput]
    constructor
    · intro hmarks line hline
      by_cases hverdict : isVerdictText line = true
      · exact hmarks line (List.mem_filter.mpr ⟨hline, hverdict⟩)
      · exact bears_failedMark_eq_false (Bool.eq_false_iff.mpr hverdict)
    · intro hmarks line hline
      exact hmarks line (List.mem_of_mem_filter hline)

end Command
end Botwright

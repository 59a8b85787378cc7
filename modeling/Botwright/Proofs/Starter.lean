import Botwright.Proofs.Compile.Diagnostics
import Botwright.Proofs.Schema.Agreement
import Botwright.Proofs.Text.Splitting
import Botwright.Starter

/-!
# Starter specifications are usable

A starter specification passes the validation, reads as itself and compiles, if its slug has a
letter or a digit: capitalising keeps one. Only the cloud may be warned of. A slug that leaves
nothing is refused by its name.
-/

namespace Botwright

namespace Text

/-! ## Upper case -/

private theorem forall_ascii {P : Char → Prop} (h : ∀ n < 128, P (Char.ofNat n)) (c : Char)
    (hc : c.toNat < 128) : P c := by
  have hcode := h c.toNat hc
  rwa [Char.ofNat_toNat] at hcode

private theorem toNat_lt_of_isAlphanumeric {c : Char} (h : Naming.isAlphanumeric c = true) :
    c.toNat < 128 := by
  simp only [Naming.isAlphanumeric, Bool.or_eq_true, Bool.and_eq_true, decide_eq_true_eq] at h
  have hle {a b : Char} (hab : a ≤ b) : a.toNat ≤ b.toNat := hab
  rcases h with (h | h) | h
  · exact Nat.lt_of_le_of_lt (hle h.2) (by decide)
  · exact Nat.lt_of_le_of_lt (hle h.2) (by decide)
  · exact Nat.lt_of_le_of_lt (hle h.2) (by decide)

private theorem isAlphanumeric_toUpper {c : Char} (h : Naming.isAlphanumeric c = true) :
    Naming.isAlphanumeric c.toUpper = true :=
  forall_ascii (P := fun c => Naming.isAlphanumeric c = true →
    Naming.isAlphanumeric c.toUpper = true) (by decide) c (toNat_lt_of_isAlphanumeric h) h

private theorem ofNat_ne_dash {n : Nat} (h : n ≠ 45) : Char.ofNat n ≠ '-' := by
  by_cases hn : n.isValidChar
  · have hcode : (Char.ofNat n).toNat = n := by
      rw [Char.ofNat, dif_pos hn]
      rfl
    intro hdash
    rw [hdash] at hcode
    exact h hcode.symm
  · rw [Char.ofNat, dif_neg hn]
    decide

private theorem dash_notMem_uppercase {c : Char} (h : c ≠ '-') : '-' ∉ uppercase c := by
  have hascii (hc : c.toNat < 128) : '-' ≠ c.toUpper :=
    forall_ascii (P := fun c => c ≠ '-' → '-' ≠ c.toUpper) (by decide) c hc h
  have hexpansions : ∀ e ∈ upperExpansions, 45 ∉ e.2 := by decide
  have hruns : ∀ run ∈ upperRuns, (45 : Int) < run.1 + run.2.2.2 := by decide +kernel
  -- ASCII comes first, then the letters with several capitals, then the runs
  rw [uppercase]
  split
  · rename_i hc
    exact mt List.mem_singleton.mp (hascii hc)
  · split
    · rename_i codes hfound
      have hcodes := hexpansions _ (List.mem_of_find?_eq_some hfound)
      intro hdash
      obtain ⟨n, hn, hdash⟩ := List.mem_map.mp hdash
      exact ofNat_ne_dash (fun he => hcodes (he ▸ hn)) hdash
    · split
      · rename_i first count stride distance hfound
        have hrun : (45 : Int) < first + distance :=
          hruns _ (List.mem_of_find?_eq_some hfound)
        have hfirst := List.find?_some hfound
        simp only [inUpperRun, Bool.and_eq_true, decide_eq_true_eq] at hfirst
        have hcode : ((c.toNat : Int) + distance).toNat ≠ 45 := by omega
        exact mt List.mem_singleton.mp (Ne.symm (ofNat_ne_dash hcode))
      · exact mt List.mem_singleton.mp (Ne.symm h)

end Text

namespace Starter

/-! ## Names -/

theorem split_eq_splitOn (slug : List Char) : words.split slug = slug.splitOn '-' := by
  apply Text.eq_splitOn rfl
  · intro rest
    rw [words.split, if_pos rfl]
  · intro c rest word others hc hrest
    rw [words.split, if_neg hc, hrest]

@[simp] theorem mem_words {slug word : List Char} :
    word ∈ words slug ↔ word ∈ slug.splitOn '-' ∧ word ≠ [] := by
  simp [words, split_eq_splitOn]

private theorem dash_notMem_capitalize {word : List Char} (h : '-' ∉ word) :
    '-' ∉ capitalize word := by
  cases word with
  | nil => exact List.not_mem_nil
  | cons c rest =>
    obtain ⟨hc, hrest⟩ := not_or.mp (mt List.mem_cons.mpr h)
    exact List.not_mem_append (Text.dash_notMem_uppercase (Ne.symm hc)) hrest

private theorem exists_mem_capitalize {word : List Char} {c : Char} (hc : c ∈ word)
    (h : Naming.isAlphanumeric c = true) :
    ∃ d ∈ capitalize word, Naming.isAlphanumeric d = true := by
  cases word with
  | nil => cases hc
  | cons first rest =>
    rcases List.mem_cons.mp hc with rfl | hc
    · have hupper : c.toUpper ∈ Text.uppercase c := by
        rw [Text.uppercase, if_pos (Text.toNat_lt_of_isAlphanumeric h)]
        exact List.mem_singleton_self _
      exact ⟨c.toUpper, List.mem_append_left rest hupper, Text.isAlphanumeric_toUpper h⟩
    · exact ⟨c, List.mem_append_right _ hc, h⟩

private theorem mem_displayName {slug : String} {c : Char} (hc : c ≠ ' ') :
    c ∈ (displayName slug).toList ↔ ∃ word ∈ words slug.toList, c ∈ capitalize word := by
  have hspace : c ∉ " ".toList := mt List.mem_singleton.mp hc
  rw [displayName, String.toList_intercalate, Text.mem_intercalate_iff hspace, List.map_map]
  simp

private theorem dash_notMem_displayName (slug : String) : '-' ∉ (displayName slug).toList := by
  rw [mem_displayName (by decide)]
  rintro ⟨word, hword, hdash⟩
  exact dash_notMem_capitalize (Text.notMem_of_mem_splitOn (mem_words.mp hword).1) hdash

private theorem sanitizeSchema_displayName_ne {slug : String}
    (h : ∃ c ∈ slug.toList, Naming.isAlphanumeric c = true) :
    Naming.sanitizeSchema (displayName slug) ≠ "" := by
  obtain ⟨c, hc, halphanumeric⟩ := h
  have hdash : c ≠ '-' := by
    rintro rfl
    cases halphanumeric
  obtain ⟨word, hword, hc⟩ := Text.exists_mem_splitOn hdash hc
  obtain ⟨d, hd, hkept⟩ := exists_mem_capitalize hc halphanumeric
  have hspace : d ≠ ' ' := by
    rintro rfl
    cases hkept
  have hname : d ∈ (displayName slug).toList :=
    (mem_displayName hspace).mpr
      ⟨word, mem_words.mpr ⟨hword, List.ne_nil_of_mem hc⟩, hd⟩
  intro hempty
  have hlost := (Naming.sanitizeSchema_eq_empty_iff _).mp hempty d hname
  rw [hkept] at hlost
  cases hlost

/-! ## Specifications -/

variable (slug cloud : String)

private theorem ofJson_toJson_agent :
    Agent.ofJson (agent slug cloud).toJson = .ok (agent slug cloud) := by
  apply Agent.ofJson_toJson
  refine List.forall_mem_singleton.mpr ?_
  exact List.forall_mem_cons.mpr ⟨rfl, List.forall_mem_singleton.mpr rfl⟩

private theorem validate_agent (h : displayName slug ≠ "") :
    Schema.validate Schema.AgentSpec.document (agent slug cloud).toJson = [] := by
  apply Agent.conforms_toJson rfl h
  refine List.forall_mem_singleton.mpr (Topic.conforms_toJson (by decide) ?_)
  refine List.forall_mem_cons.mpr ⟨?_, List.forall_mem_singleton.mpr ?_⟩
  · exact Action.conforms_of_childless rfl rfl rfl
  · exact Action.conforms_of_childless rfl rfl rfl

variable {slug cloud} {options : Options}

private theorem acceptable_agent (hp : Naming.checkPublisher options.publisher = .ok ())
    (h : Naming.sanitizeSchema (displayName slug) ≠ "") :
    (agent slug cloud).Acceptable options where
  identified := ⟨⟨_, rfl, h⟩,
    (Naming.isPublisher_iff _).mp ((Agent.checkPublisher_eq_ok _).mp hp)⟩
  usable := List.forall_mem_singleton.mpr (by decide)
  distinct := List.nodup_singleton _
  reserved := List.forall_mem_singleton.mpr (by decide)

variable {σ : Type} [IdSource σ] {s : σ} {r : Compilation}

/-- Nothing is found in the document: a message and an answer refer to nothing and end nothing. -/
theorem check_agent (h : ((agent slug cloud).compile options s).result = .ok r) :
    r.document.check = [] := by
  obtain ⟨name, _, hdocument, _⟩ := Agent.compile_document options (agent slug cloud) s r h
  obtain ⟨botId, s', hcheck⟩ :=
    Agent.check_assemble options (agent slug cloud) name (agent slug cloud).topicList s
  rw [hdocument, hcheck]
  rfl

private theorem diagnostics_agent (h : ((agent slug cloud).compile options s).result = .ok r) :
    r.diagnostics = if cloud ∈ Catalogue.clouds.map Prod.fst then [] else
      [⟨.warning, "unknown-cloud", "metadata.cloud",
        "unknown cloud '" ++ cloud ++ "' mapped to the commercial cloud"⟩] := by
  have hlanguage : (agent slug cloud).languageWarnings = [] := rfl
  have htopics : (agent slug cloud).topicList.flatMap Topic.warnings = [] := rfl
  rw [Agent.diagnostics_of_compile h, check_agent h, hlanguage, htopics]
  simp only [List.map_nil, ite_self, List.append_nil, List.nil_append]
  rfl

private theorem displayName_agent (h : ((agent slug cloud).compile options s).result = .ok r) :
    r.document.entity.displayName = displayName slug := by
  obtain ⟨name, hname, hdocument, _⟩ := Agent.compile_document options (agent slug cloud) s r h
  obtain ⟨hname, -⟩ := (Agent.checkName_eq_ok options (agent slug cloud) name).mp hname
  cases hname
  rw [hdocument]
  rfl

private theorem compile_agent_of_nameless (h : Naming.sanitizeSchema (displayName slug) = "") :
    ((agent slug cloud).compile options s).result =
      .error (.invalidName "name" (displayName slug)) := by
  have hname := Agent.checkName_of_unusable options (agent slug cloud) _ rfl h
  rw [Agent.compile_of_checkName_error options (agent slug cloud) s _ hname]

/-- A starter specification is usable if its slug has a letter or a digit, whatever else the slug
holds; in general it compiles exactly if its name leaves something. -/
theorem starter_usable (slug cloud : String) (options : Options) (s : σ)
    (hp : Naming.checkPublisher options.publisher = .ok ()) :
    ((∃ c ∈ slug.toList, Naming.isAlphanumeric c = true) →
      Schema.validate Schema.AgentSpec.document (agent slug cloud).toJson = [] ∧
      Agent.ofJson (agent slug cloud).toJson = .ok (agent slug cloud) ∧
      ∃ r, ((agent slug cloud).compile options s).result = .ok r ∧
        r.document.entity.displayName = displayName slug ∧
        r.diagnostics = if cloud ∈ Catalogue.clouds.map Prod.fst then [] else
          [⟨.warning, "unknown-cloud", "metadata.cloud",
            "unknown cloud '" ++ cloud ++ "' mapped to the commercial cloud"⟩]) ∧
    '-' ∉ (displayName slug).toList ∧
    ((∃ r, ((agent slug cloud).compile options s).result = .ok r) ↔
      Naming.sanitizeSchema (displayName slug) ≠ "") ∧
    (Naming.sanitizeSchema (displayName slug) = "" →
      ((agent slug cloud).compile options s).result =
        .error (.invalidName "name" (displayName slug))) := by
  refine ⟨?_, dash_notMem_displayName slug, ⟨?_, ?_⟩, compile_agent_of_nameless⟩
  · intro hslug
    have hstem := sanitizeSchema_displayName_ne hslug
    have hname : displayName slug ≠ "" := by
      intro hempty
      rw [hempty] at hstem
      exact hstem (by decide)
    obtain ⟨r, h⟩ :=
      Agent.compile_of_acceptable s options (agent slug cloud) (acceptable_agent hp hstem)
    exact ⟨validate_agent slug cloud hname, ofJson_toJson_agent slug cloud, r, h,
      displayName_agent h, diagnostics_agent h⟩
  · rintro ⟨r, h⟩ hempty
    rw [compile_agent_of_nameless hempty] at h
    cases h
  · intro hstem
    exact Agent.compile_of_acceptable s options (agent slug cloud) (acceptable_agent hp hstem)

/-- Repeated dashes are dropped, a capital letter may be two, and a cloud that is not known is
warned of. -/
theorem help_starter_usable :
    ∃ r, ((agent "--ß-help2" "moon").compile {} SequentialIds.fresh).result = .ok r ∧
      r.document.entity.displayName = "SS Help2" ∧
      r.diagnostics = [⟨.warning, "unknown-cloud", "metadata.cloud",
        "unknown cloud 'moon' mapped to the commercial cloud"⟩] ∧
      ((agent "-%" "moon").compile {} SequentialIds.fresh).result =
        .error (.invalidName "name" "%") := by
  have hp : Naming.checkPublisher ({} : Options).publisher = .ok () := rfl
  have hname : displayName "--ß-help2" = "SS Help2" := by decide
  have hbare : displayName "-%" = "%" := by decide
  obtain ⟨husable, -⟩ := starter_usable "--ß-help2" "moon" {} SequentialIds.fresh hp
  obtain ⟨-, -, -, hrefused⟩ := starter_usable "-%" "moon" {} SequentialIds.fresh hp
  have hslug : 'h' ∈ "--ß-help2".toList := by decide
  obtain ⟨-, -, r, h, hdisplay, hdiagnostics⟩ := husable ⟨'h', hslug, by decide⟩
  rw [hbare] at hrefused
  exact ⟨r, h, hdisplay.trans hname, hdiagnostics, hrefused (by decide)⟩

end Starter
end Botwright

import Botwright.Compile.Topics
import Botwright.Proofs.Spec.Nesting
import Mathlib.Data.List.Forall2

/-!
# Places

A place is an element of a list, at the end of a way down through the lists that lie inside one
another. Its text tells the place, whatever the name of the topic looks like.
-/

namespace Botwright

/-- A step down from an element of a list into one of the lists inside it. -/
structure Descent where
  index : Nat
  arm : Arm
deriving DecidableEq

namespace Arm

def path (path : String) : Arm → String
  | branch index => branchPath path index
  | otherwise => elsePath path

end Arm

def Descent.path (path : String) (d : Descent) : String := d.arm.path (elementPath path d.index)

/-- The text of the place that is `index` in the list at the end of a way. -/
def placePath (path : String) (way : List Descent) (index : Nat) : String :=
  elementPath (way.foldl Descent.path path) index

/-! ## The text tells the place -/

private theorem append_cons_inj_of_first {c : Char} {s s' t t' : List Char} (hs : c ∉ s)
    (hs' : c ∉ s') (h : s ++ c :: t = s' ++ c :: t') : s = s' ∧ t = t' := by
  rcases List.append_eq_append_iff.mp h with ⟨rest, rfl, hrest⟩ | ⟨rest, rfl, hrest⟩
  · cases rest with
    | nil => simpa using hrest
    | cons x rest =>
      obtain ⟨rfl, _⟩ := List.cons.inj hrest
      exact absurd (List.mem_append_right s List.mem_cons_self) hs'
  · cases rest with
    | nil => simpa [eq_comm] using hrest
    | cons x rest =>
      obtain ⟨rfl, _⟩ := List.cons.inj hrest
      exact absurd (List.mem_append_right s' List.mem_cons_self) hs

private theorem append_cons_inj_of_last {c : Char} {s s' t t' : List Char} (ht : c ∉ t)
    (ht' : c ∉ t') (h : s ++ c :: t = s' ++ c :: t') : s = s' ∧ t = t' := by
  have hreverse := congrArg List.reverse h
  simp only [List.reverse_append, List.reverse_cons, List.append_assoc, List.singleton_append]
    at hreverse
  obtain ⟨hts, hss⟩ := append_cons_inj_of_first (by rwa [List.mem_reverse])
    (by rwa [List.mem_reverse]) hreverse
  exact ⟨List.reverse_injective hss, List.reverse_injective hts⟩

def indexText (n : Nat) : List Char := (toString n).toList

private theorem notMem_indexText {c : Char} (hc : c.isDigit = false) (n : Nat) :
    c ∉ indexText n := by
  intro h
  rw [indexText, Nat.toString_eq_repr, Nat.toList_repr] at h
  rw [Nat.isDigit_of_mem_toDigits (by decide) (by decide) h] at hc
  cases hc

private theorem indexText_inj {m n : Nat} (h : indexText m = indexText n) : m = n := by
  have hnumber := congrArg (fun digits => Nat.ofDigitChars 10 digits 0) h
  simpa [indexText, Nat.toString_eq_repr] using hnumber

def bracketed (index : Nat) : List Char := '[' :: (indexText index ++ [']'])

private theorem bracketed_append_inj {m n : Nat} {rest rest' : List Char}
    (h : bracketed m ++ rest = bracketed n ++ rest') : m = n ∧ rest = rest' := by
  simp only [bracketed, List.cons_append, List.append_assoc, List.nil_append] at h
  obtain ⟨hindex, hrest⟩ := append_cons_inj_of_first (notMem_indexText (by decide) m)
    (notMem_indexText (by decide) n) (List.cons.inj h).2
  exact ⟨indexText_inj hindex, hrest⟩

def Arm.text : Arm → List Char
  | branch index =>
      ['.', 'c', 'o', 'n', 'd', 'i', 't', 'i', 'o', 'n', 's'] ++
        (bracketed index ++ ['.', 't', 'h', 'e', 'n'])
  | otherwise => ['.', 'e', 'l', 's', 'e']

private theorem Arm.text_append_inj {arm arm' : Arm} {rest rest' : List Char}
    (h : arm.text ++ rest = arm'.text ++ rest') : arm = arm' ∧ rest = rest' := by
  cases arm with
  | branch index =>
    cases arm' with
    | branch index' =>
      simp only [text, List.append_assoc] at h
      obtain ⟨rfl, hrest⟩ := bracketed_append_inj (List.append_cancel_left h)
      exact ⟨rfl, List.append_cancel_left hrest⟩
    | otherwise => exact absurd (List.cons.inj (List.cons.inj h).2).1 (by decide)
  | otherwise =>
    cases arm' with
    | branch index' => exact absurd (List.cons.inj (List.cons.inj h).2).1 (by decide)
    | otherwise => exact ⟨rfl, List.append_cancel_left h⟩

@[simp] theorem Arm.text_ne_nil (arm : Arm) : arm.text ≠ [] := by
  cases arm <;> nofun

/-- What the text of a place adds to that of the outermost list. -/
def placeText : List Descent → Nat → List Char
  | [], index => bracketed index
  | d :: way, index => bracketed d.index ++ (d.arm.text ++ placeText way index)

private theorem placeText_inj {way way' : List Descent} {index index' : Nat}
    (h : placeText way index = placeText way' index') : way = way' ∧ index = index' := by
  induction way generalizing way' with
  | nil =>
    rw [placeText, ← List.append_nil (bracketed index)] at h
    cases way' with
    | nil =>
      rw [placeText, ← List.append_nil (bracketed index')] at h
      exact ⟨rfl, (bracketed_append_inj h).1⟩
    | cons d' way' =>
      have hnil := (bracketed_append_inj h).2.symm
      exact absurd (List.append_eq_nil_iff.mp hnil).1 d'.arm.text_ne_nil
  | cons d way ih =>
    cases way' with
    | nil =>
      rw [placeText, placeText, ← List.append_nil (bracketed index')] at h
      have hnil := (bracketed_append_inj h).2
      exact absurd (List.append_eq_nil_iff.mp hnil).1 d.arm.text_ne_nil
    | cons d' way' =>
      obtain ⟨hindex, htext⟩ := bracketed_append_inj h
      obtain ⟨harm, hrest⟩ := Arm.text_append_inj htext
      obtain ⟨rfl, rfl⟩ := ih hrest
      cases d
      cases d'
      cases hindex
      cases harm
      exact ⟨rfl, rfl⟩

@[simp] theorem toList_elementPath (path : String) (index : Nat) :
    (elementPath path index).toList = path.toList ++ bracketed index := by
  simp [elementPath, bracketed, indexText]

@[simp] theorem Arm.toList_path (path : String) (arm : Arm) :
    (arm.path path).toList = path.toList ++ arm.text := by
  cases arm with
  | branch index => simp [Arm.path, branchPath, text]
  | otherwise => simp [Arm.path, elsePath, text]

@[simp] theorem toList_placePath (path : String) (way : List Descent) (index : Nat) :
    (placePath path way index).toList = path.toList ++ placeText way index := by
  induction way generalizing path with
  | nil => exact toList_elementPath path index
  | cons d way ih =>
    change (placePath (d.path path) way index).toList = _
    simp [ih, Descent.path, placeText]

theorem placePath_inj {path : String} {way way' : List Descent} {index index' : Nat}
    (h : placePath path way index = placePath path way' index') :
    way = way' ∧ index = index' := by
  have htext := congrArg String.toList h
  rw [toList_placePath, toList_placePath] at htext
  exact placeText_inj (List.append_cancel_left htext)

private theorem notMem_placeText (way : List Descent) (index : Nat) :
    '\'' ∉ placeText way index := by
  have hindex (n : Nat) : '\'' ∉ bracketed n := by
    simp [bracketed, notMem_indexText (c := '\'') (by decide) n]
  induction way with
  | nil => exact hindex index
  | cons d way ih =>
    have harm : '\'' ∉ d.arm.text := by
      cases d.arm <;> simp [Arm.text, hindex]
    simp [placeText, hindex, harm, ih]

theorem placePath_topicPath_inj {name name' : String} {way way' : List Descent}
    {index index' : Nat}
    (h : placePath (topicPath name) way index = placePath (topicPath name') way' index') :
    name = name' ∧ way = way' ∧ index = index' := by
  have hrest : '\'' ∉ " > actions".toList := by decide
  have hclose : "' > actions".toList = '\'' :: " > actions".toList := by decide
  have htext := congrArg String.toList h
  simp only [toList_placePath, topicPath, String.toList_append, List.append_assoc, hclose,
    List.cons_append] at htext
  obtain ⟨hname, hplace⟩ := append_cons_inj_of_last
    (List.not_mem_append hrest (notMem_placeText way index))
    (List.not_mem_append hrest (notMem_placeText way' index'))
    (List.append_cancel_left htext)
  exact ⟨String.toList_injective hname, placeText_inj (List.append_cancel_left hplace)⟩

/-! ## Ways down -/

section Descend

variable {α β : Type} (inner : Arm → α → List α)

def descend : List Descent → List α → List α
  | [], l => l
  | d :: way, l => descend way ((l[d.index]?.map (inner d.arm)).getD [])

@[simp] theorem descend_nil_list (way : List Descent) : descend inner way [] = [] := by
  induction way with
  | nil => rfl
  | cons d way ih => exact ih

theorem getElem?_of_forall₂ {R : α → β → Prop} {l : List α} {l' : List β}
    (h : List.Forall₂ R l l') (index : Nat) : Option.Rel R l[index]? l'[index]? := by
  induction h generalizing index with
  | nil => exact .none
  | cons hab _ ih =>
    cases index with
    | zero => exact .some hab
    | succ index => exact ih index

theorem exists_of_forall₂ {R : α → β → Prop} {l : List α} {l' : List β}
    (h : List.Forall₂ R l l') : ∀ b ∈ l', ∃ a ∈ l, R a b := by
  induction h with
  | nil => exact List.forall_mem_nil _
  | @cons a b l l' hab _ ih =>
    refine List.forall_mem_cons.mpr ⟨⟨a, List.mem_cons_self, hab⟩, ?_⟩
    intro b hb
    obtain ⟨a, ha, hab⟩ := ih b hb
    exact ⟨a, List.mem_cons_of_mem _ ha, hab⟩

theorem forall₂_descend {inner' : Arm → β → List β} {R : α → β → Prop}
    (hR : ∀ a b, R a b → ∀ arm, List.Forall₂ R (inner arm a) (inner' arm b)) {l : List α}
    {l' : List β} (h : List.Forall₂ R l l') (way : List Descent) :
    List.Forall₂ R (descend inner way l) (descend inner' way l') := by
  induction way generalizing l l' with
  | nil => exact h
  | cons d way ih =>
    apply ih
    have hindex := getElem?_of_forall₂ h d.index
    generalize l[d.index]? = o at hindex
    generalize l'[d.index]? = o' at hindex
    cases hindex with
    | none => exact .nil
    | some hab => exact hR _ _ hab d.arm

/-- What passes from the lists inside the elements of a list to the list itself holds of every
list. -/
theorem nested_induction [SizeOf α] (hsize : ∀ arm a, ∀ b ∈ inner arm a, sizeOf b < sizeOf a)
    {P : List α → Prop} (step : ∀ l, (∀ a ∈ l, ∀ arm, P (inner arm a)) → P l) (l : List α) :
    P l := by
  have hbound : ∀ n l, (∀ a ∈ l, sizeOf a < n) → P l := by
    intro n
    induction n with
    | zero => exact fun l hl => step l fun a ha => absurd (hl a ha) (Nat.not_lt_zero _)
    | succ n ih =>
      intro l hl
      apply step
      intro a ha arm
      apply ih
      intro b hb
      have hb := hsize arm a b hb
      have ha := hl a ha
      omega
  exact hbound (sizeOf l) l fun a ha => List.sizeOf_lt_of_mem ha

end Descend

end Botwright

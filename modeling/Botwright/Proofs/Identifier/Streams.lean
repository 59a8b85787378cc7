import Botwright.Proofs.Identifier.Random
import Mathlib.Data.List.Induction
import Mathlib.Order.Nat

/-!
# Random sources on endless streams

Nothing bounds how many values a random source reads for one token: it goes on until a token is
new. So its values are an endless stream, of which a pool holds the first ones. Draws return on
the stream when some pool covers them, and then each larger pool gives the same outcome. A token
that is not to be found in any pool is never returned.
-/

namespace Botwright.RandomIds

open IdSource

section Pool

/-- Whether the pool answers every draw, so that no numeral has to stand in. -/
def covers : List Draw → RandomIds → Bool
  | [], _ => true
  | .token :: draws, s => s.token?.isSome && covers draws (token s).2
  | .uuid :: draws, s => s.uuid?.isSome && covers draws (uuid s).2

/-- The pool alone answers the draws, with these tokens, and leaves this source. -/
structure Yields (s : RandomIds) (draws : List Draw) (ts : List String) (left : RandomIds) :
    Prop where
  covered : s.covers draws
  tokens_eq : tokens draws s = ts
  after_eq : after draws s = left

variable {s left last : RandomIds} {draws more : List Draw} {ts us : List String}

@[simp] theorem covers_append (draws more : List Draw) (s : RandomIds) :
    s.covers (draws ++ more) = (s.covers draws && (after draws s).covers more) := by
  induction draws generalizing s with
  | nil => rfl
  | cons draw draws ih =>
    cases draw <;> simp only [List.cons_append, covers, after, ih, Bool.and_assoc]

private theorem covers_token (s : RandomIds) :
    s.covers [.token] = (firstFresh s.issued s.pool).isSome := by
  simp [covers, token?]

theorem Yields.append (h : Yields s draws ts left) (hmore : Yields left more us last) :
    Yields s (draws ++ more) (ts ++ us) last := by
  obtain ⟨hcovered, rfl, rfl⟩ := h
  obtain ⟨hmoreCovered, rfl, rfl⟩ := hmore
  refine ⟨?_, tokens_append draws more s, after_append draws more s⟩
  simp [hcovered, hmoreCovered]

private theorem yields_token {t : String} {rest : List Nat}
    (h : firstFresh s.issued s.pool = some (t, rest)) :
    Yields s [.token] [t] ⟨rest, t :: s.issued⟩ := by
  have htoken : token s = (t, ⟨rest, t :: s.issued⟩) := by
    simp [token_eq, token?, h]
  constructor
  · rw [covers_token, h, Option.isSome_some]
  · rw [tokens, tokens, htoken]
  · rw [after, after, htoken]

private theorem yields_uuid {value : Nat} {rest : List Nat} (h : s.pool = value :: rest) :
    Yields s [.uuid] [] ⟨rest, s.issued⟩ := by
  have hanswer : s.uuid? = some (Uuid.ofNat value, ⟨rest, s.issued⟩) := by rw [uuid?, h]
  constructor
  · simp [covers, hanswer]
  · rw [tokens, tokens]
  · rw [after, after, uuid_eq, hanswer, Option.getD_some]

private theorem issued_proper_of_covers (draws : List Draw) (s : RandomIds)
    (hs : ProperTokens s.issued) (h : s.covers draws) : ProperTokens (after draws s).issued := by
  induction draws generalizing s with
  | nil => exact hs
  | cons draw draws ih =>
    cases draw with
    | token =>
      obtain ⟨hanswer, hrest⟩ := Bool.and_eq_true_iff.mp h
      obtain ⟨hnew, hwell⟩ := token_fresh_of_isSome s hanswer
      apply ih (token s).2 _ hrest
      rw [token_issued]
      exact hs.cons hnew hwell
    | uuid =>
      apply ih (uuid s).2 _ (Bool.and_eq_true_iff.mp h).2
      rwa [uuid_issued]

end Pool

/-- The pool that holds `count` values of a stream, from the position `first` on. -/
def excerpt (values : ℕ → Uuid) (first count : ℕ) : List ℕ :=
  (List.range' first count).map fun k => (values k).toNat

/-- The fresh source that holds the first values of a stream. -/
def ofStream (values : ℕ → Uuid) (size : ℕ) : RandomIds := ofPool (excerpt values 0 size)

/-- From the position `first` on, the first value whose token is new stands at `k`. -/
def FirstNew (values : ℕ → Uuid) (first : ℕ) (issued : List String) (k : ℕ) : Prop :=
  IsLeast {j | first ≤ j ∧ tokenOf (values j).toNat ∉ issued} k

/-- On a stream the draws return these tokens. They read so many of its values and nothing behind
them: whatever number of values a pool holds ahead, it still holds after the draws. -/
def Returns (values : ℕ → Uuid) (draws : List Draw) (ts : List String) (read : ℕ)
    (issued : List String) : Prop :=
  ∀ ahead, Yields (ofStream values (read + ahead)) draws ts ⟨excerpt values read ahead, issued⟩

section Stream

variable {values : ℕ → Uuid} {first count k : ℕ} {issued : List String}

private theorem excerpt_add (values : ℕ → Uuid) (first m n : ℕ) :
    excerpt values first (m + n) = excerpt values first m ++ excerpt values (first + m) n := by
  simp only [excerpt, ← List.map_append, List.range'_append_1]

private theorem excerpt_succ (values : ℕ → Uuid) (first n : ℕ) :
    excerpt values first (n + 1) = (values first).toNat :: excerpt values (first + 1) n := by
  rw [excerpt, List.range'_succ, List.map_cons, excerpt]

@[simp] theorem length_excerpt (values : ℕ → Uuid) (first n : ℕ) :
    (excerpt values first n).length = n := by
  simp [excerpt]

@[simp] theorem mem_excerpt {v : ℕ} :
    v ∈ excerpt values first count ↔
      ∃ k, (first ≤ k ∧ k < first + count) ∧ (values k).toNat = v := by
  simp [excerpt]

private theorem firstNew_self (h : tokenOf (values k).toNat ∉ issued) :
    FirstNew values k issued k :=
  ⟨⟨Nat.le_refl k, h⟩, fun _ hj => hj.1⟩

private theorem FirstNew.of_issued (hissued : tokenOf (values first).toNat ∈ issued)
    (h : FirstNew values (first + 1) issued k) : FirstNew values first issued k := by
  obtain ⟨⟨hfirst, hnew⟩, hleast⟩ := h
  refine ⟨⟨Nat.le_of_succ_le hfirst, hnew⟩, ?_⟩
  intro j ⟨hj, hjnew⟩
  have hne : first ≠ j := by
    intro he
    exact hjnew (he ▸ hissued)
  exact hleast ⟨Nat.lt_of_le_of_ne hj hne, hjnew⟩

/-- The values in front of the first new one are passed over, and none behind it is read. -/
theorem firstFresh_excerpt (hk : FirstNew values first issued k) (ahead : ℕ) :
    firstFresh issued (excerpt values first (k - first + (ahead + 1))) =
      some (tokenOf (values k).toNat, excerpt values (k + 1) ahead) := by
  obtain ⟨⟨hfirst, hnew⟩, hleast⟩ := hk
  obtain ⟨passed, rfl⟩ := Nat.exists_eq_add_of_le hfirst
  rw [Nat.add_sub_cancel_left, excerpt_add, excerpt_succ]
  apply firstFresh_of_passed _ hnew
  intro v hv
  obtain ⟨j, ⟨hj, hjk⟩, rfl⟩ := mem_excerpt.mp hv
  by_contra hnotIssued
  have hle := hleast ⟨hj, hnotIssued⟩
  omega

private theorem exists_firstNew (h : (firstFresh issued (excerpt values first count)).isSome) :
    ∃ k, FirstNew values first issued k ∧ k < first + count := by
  classical
  obtain ⟨⟨t, rest⟩, hfound⟩ := Option.isSome_iff_exists.mp h
  obtain ⟨passed, value, hpool, rfl, hnew, _⟩ := firstFresh_spec issued _ rest t hfound
  have hvalue : value ∈ excerpt values first count := by
    rw [hpool]
    exact List.mem_append_right passed List.mem_cons_self
  obtain ⟨j, ⟨hj, hlast⟩, rfl⟩ := mem_excerpt.mp hvalue
  have hexists : ∃ k, first ≤ k ∧ tokenOf (values k).toNat ∉ issued := ⟨j, hj, hnew⟩
  refine ⟨Nat.find hexists, Nat.isLeast_find hexists, ?_⟩
  exact Nat.lt_of_le_of_lt (Nat.find_min' hexists ⟨hj, hnew⟩) hlast

end Stream

section Returns

variable {values : ℕ → Uuid} {draws : List Draw} {ts us issued kept : List String}
  {read other k : ℕ}

private theorem returns_nil (values : ℕ → Uuid) : Returns values [] [] 0 [] := by
  intro ahead
  rw [Nat.zero_add]
  exact ⟨rfl, rfl, rfl⟩

theorem Returns.token (h : Returns values draws ts read issued)
    (hk : FirstNew values read issued k) :
    Returns values (draws ++ [.token]) (ts ++ [tokenOf (values k).toNat]) (k + 1)
      (tokenOf (values k).toNat :: issued) := by
  intro ahead
  have hsize : k + 1 + ahead = read + (k - read + (ahead + 1)) := by
    have hread := hk.1.1
    omega
  rw [hsize]
  exact (h _).append (yields_token (firstFresh_excerpt hk ahead))

theorem Returns.uuid (h : Returns values draws ts read issued) :
    Returns values (draws ++ [.uuid]) ts (read + 1) issued := by
  intro ahead
  have hyields := (h (ahead + 1)).append (yields_uuid (excerpt_succ values read ahead))
  rwa [List.append_nil, ← Nat.add_assoc, Nat.add_right_comm] at hyields

theorem Returns.unique (h : Returns values draws ts read issued)
    (hother : Returns values draws us other kept) : ts = us ∧ read = other ∧ issued = kept := by
  have hsource := (h other).after_eq
  rw [Nat.add_comm, (hother read).after_eq] at hsource
  injection hsource with hpool hissued
  have hlength := congrArg List.length hpool
  rw [length_excerpt, length_excerpt] at hlength
  subst hlength
  exact ⟨(h 0).tokens_eq.symm.trans (hother 0).tokens_eq, rfl, hissued.symm⟩

/-- The draws return on the stream once a pool covers them; they read no value that it lacks. -/
theorem exists_returns (values : ℕ → Uuid) (draws : List Draw) (size : ℕ)
    (h : (ofStream values size).covers draws) :
    ∃ ts read issued, read ≤ size ∧ Returns values draws ts read issued := by
  -- from the end, since the last draw meets the source that the others leave
  induction draws using List.reverseRecOn with
  | nil => exact ⟨[], 0, [], Nat.zero_le size, returns_nil values⟩
  | append_singleton draws draw ih =>
    rw [covers_append, Bool.and_eq_true_iff] at h
    obtain ⟨hcovered, hlast⟩ := h
    obtain ⟨ts, read, issued, hread, hreturns⟩ := ih hcovered
    obtain ⟨ahead, rfl⟩ := Nat.exists_eq_add_of_le hread
    rw [(hreturns ahead).after_eq] at hlast
    cases draw with
    | token =>
      rw [covers_token] at hlast
      obtain ⟨k, hk, hheld⟩ := exists_firstNew hlast
      exact ⟨_, k + 1, _, hheld, hreturns.token hk⟩
    | uuid =>
      cases ahead with
      | zero => cases hlast
      | succ ahead => exact ⟨ts, read + 1, issued, by omega, hreturns.uuid⟩

private theorem Returns.covers_eq_false (h : Returns values draws ts read issued)
    (hissued : ∀ k, read ≤ k → tokenOf (values k).toNat ∈ issued) (size : ℕ) :
    (ofStream values size).covers (draws ++ [.token]) = false := by
  by_contra hcovered
  rw [Bool.not_eq_false, covers_append, Bool.and_eq_true_iff] at hcovered
  obtain ⟨hbefore, hlast⟩ := hcovered
  obtain ⟨us, other, kept, hother, hreturns⟩ := exists_returns values draws size hbefore
  obtain ⟨rfl, rfl, rfl⟩ := h.unique hreturns
  obtain ⟨ahead, rfl⟩ := Nat.exists_eq_add_of_le hother
  rw [(h ahead).after_eq, covers_token] at hlast
  -- a pool that answered would hold a first new value
  obtain ⟨k, ⟨⟨hk, hnew⟩, _⟩, _⟩ := exists_firstNew hlast
  exact hnew (hissued k hk)

private theorem Returns.issued_eq (h : Returns values draws ts read issued) :
    issued = ts.reverse := by
  have hissued := after_issued draws (ofStream values (read + 0))
  rw [(h 0).after_eq, (h 0).tokens_eq] at hissued
  exact hissued.trans (List.append_nil _)

theorem Returns.proper (h : Returns values draws ts read issued) : ProperTokens ts := by
  have hstart : ProperTokens (ofStream values (read + 0)).issued :=
    ⟨List.nodup_nil, fun t ht => absurd ht List.not_mem_nil⟩
  have hproper := issued_proper_of_covers draws _ hstart (h 0).covered
  rw [(h 0).after_eq] at hproper
  change ProperTokens issued at hproper
  rwa [h.issued_eq, properTokens_reverse] at hproper

private theorem Returns.mem_issued_iff (h : Returns values draws ts read issued) (t : String) :
    t ∈ issued ↔ t ∈ ts := by
  rw [h.issued_eq, List.mem_reverse]

end Returns

/-- After any draws on any stream the returned tokens are distinct and well formed, and they are
just those that count as issued. The next token is that of the first value, behind those that
were read, whose token was not returned before; where there is none, the draw does not return from
any pool. A unique identifier takes the next value and issues nothing. -/
theorem stream_tokens_new (values : ℕ → Uuid) (draws : List Draw) :
    (∀ size, (ofStream values size).covers draws →
      ∃ ts read issued, read ≤ size ∧ Returns values draws ts read issued) ∧
    ∀ ts read issued, Returns values draws ts read issued →
      ProperTokens ts ∧ (∀ t, t ∈ issued ↔ t ∈ ts) ∧
      (∀ k, FirstNew values read ts k →
        Returns values (draws ++ [.token]) (ts ++ [tokenOf (values k).toNat]) (k + 1)
          (tokenOf (values k).toNat :: issued)) ∧
      ((∀ k, read ≤ k → tokenOf (values k).toNat ∈ ts) →
        ∀ size, (ofStream values size).covers (draws ++ [.token]) = false) ∧
      Returns values (draws ++ [.uuid]) ts (read + 1) issued := by
  refine ⟨exists_returns values draws, ?_⟩
  intro ts read issued h
  refine ⟨h.proper, h.mem_issued_iff, ?_, ?_, h.uuid⟩
  · intro k hk
    apply h.token
    simpa only [FirstNew, h.mem_issued_iff] using hk
  · intro hts
    apply h.covers_eq_false
    intro k hk
    exact (h.mem_issued_iff _).mpr (hts k hk)

/-- A stream of distinct values whose tokens all come twice. -/
def doubled (k : ℕ) : Uuid := Uuid.ofNat (36 ^ 8 * k + k / 2)

/-- On the doubled stream a unique identifier takes the second value of one token, and a token
passes over the second value of another. On a constant stream the first token is the only one. -/
theorem doubled_tokens_new :
    (ofStream doubled 5).covers [.token, .uuid, .token, .token] ∧
      (∃ ts read issued, read ≤ 5 ∧
        Returns doubled [.token, .uuid, .token, .token] ts read issued) ∧
      Returns doubled [.token, .uuid, .token, .token] ["00000000", "00000001", "00000002"] 5
        ["00000002", "00000001", "00000000"] ∧
      ProperTokens ["00000000", "00000001", "00000002"] ∧
      ∀ size, (ofStream (fun _ => doubled 7) size).covers [.token, .token] = false := by
  have hcovered : (ofStream doubled 5).covers [.token, .uuid, .token, .token] := by decide
  obtain ⟨_, _, htoken, _, _⟩ := (stream_tokens_new doubled []).2 _ _ _ (returns_nil doubled)
  have hfirst : Returns doubled [.token] ["00000000"] 1 ["00000000"] :=
    htoken 0 (firstNew_self (by decide))
  obtain ⟨_, _, _, _, huuid⟩ := (stream_tokens_new doubled [.token]).2 _ _ _ hfirst
  obtain ⟨_, _, htoken, _, _⟩ := (stream_tokens_new doubled [.token, .uuid]).2 _ _ _ huuid
  have hsecond : Returns doubled [.token, .uuid, .token] ["00000000", "00000001"] 3
      ["00000001", "00000000"] :=
    htoken 2 (firstNew_self (by decide))
  obtain ⟨_, _, htoken, _, _⟩ :=
    (stream_tokens_new doubled [.token, .uuid, .token]).2 _ _ _ hsecond
  -- the value at 3 has the token of the value at 2
  have hthird : Returns doubled [.token, .uuid, .token, .token]
      ["00000000", "00000001", "00000002"] 5 ["00000002", "00000001", "00000000"] :=
    htoken 4 (FirstNew.of_issued (by decide) (firstNew_self (by decide)))
  obtain ⟨hreturned, hproperties⟩ :=
    stream_tokens_new doubled [.token, .uuid, .token, .token]
  obtain ⟨hproper, _⟩ := hproperties _ _ _ hthird
  have hconstant : Returns (fun _ => doubled 7) [.token] ["00000003"] 1 ["00000003"] :=
    (returns_nil _).token (firstNew_self (k := 0) (by decide))
  obtain ⟨_, _, _, hnever, _⟩ :=
    (stream_tokens_new (fun _ => doubled 7) [.token]).2 _ _ _ hconstant
  refine ⟨hcovered, hreturned 5 hcovered, hthird, hproper, hnever ?_⟩
  intro k _
  decide

end Botwright.RandomIds

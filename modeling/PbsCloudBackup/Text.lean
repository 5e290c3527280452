import Mathlib.Data.List.Infix
/-!
# Rust string operations on character lists

The parsers and printers of `pbs-api-types` work on `&str`. A string is modelled by its
list of characters, and `str::strip_prefix` and `str::split_once` by the functions below
(`starts_with` followed by `strip_prefix` is one `stripPrefix`). The lemmas say what they
return on a concatenation, which is all the round trips of the location and group-filter
syntaxes need.
-/

namespace PbsCloudBackup.Text

/-- `str::strip_prefix`: the rest of `s` after `p`, when `s` starts with `p`. -/
def stripPrefix : List Char → List Char → Option (List Char)
  | s, [] => some s
  | [], _ :: _ => none
  | c :: s, d :: p => if c = d then stripPrefix s p else none

/-- `str::split_once` at a character: the text before its first occurrence and the text
after it. -/
def splitOnce : List Char → Char → Option (List Char × List Char)
  | [], _ => none
  | d :: s, c => if d = c then some ([], s) else (splitOnce s c).map fun r => (d :: r.1, r.2)

@[simp] theorem stripPrefix_append (p x : List Char) : stripPrefix (p ++ x) p = some x := by
  induction p with
  | nil => cases x <;> rfl
  | cons c p ih => simp [stripPrefix, ih]

theorem stripPrefix_eq_some_iff {s p x : List Char} : stripPrefix s p = some x ↔ s = p ++ x := by
  refine ⟨fun h => ?_, by rintro rfl; exact stripPrefix_append p x⟩
  induction p generalizing s with
  | nil => cases s <;> simpa [stripPrefix] using h
  | cons d p ih =>
    cases s with
    | nil => simp [stripPrefix] at h
    | cons c s =>
      simp only [stripPrefix] at h
      split_ifs at h with hc
      simp [hc, ih h]

theorem stripPrefix_eq_none_iff {s p : List Char} : stripPrefix s p = none ↔ ¬p <+: s := by
  cases h : stripPrefix s p with
  | none => simp only [true_iff]; rintro ⟨x, rfl⟩; simp at h
  | some x => simpa using ⟨x, (stripPrefix_eq_some_iff.1 h).symm⟩

/-- A prefix that neither extends nor is extended by `p` is not stripped from `p ++ x`. -/
theorem stripPrefix_append_of_incomparable {p q : List Char} (x : List Char)
    (hqp : ¬q <+: p) (hpq : ¬p <+: q) : stripPrefix (p ++ x) q = none := by
  rw [stripPrefix_eq_none_iff]
  intro hq
  rcases List.prefix_or_prefix_of_prefix hq (List.prefix_append p x) with h | h
  · exact hqp h
  · exact hpq h

theorem splitOnce_eq_some_iff {s a b : List Char} {c : Char} :
    splitOnce s c = some (a, b) ↔ s = a ++ c :: b ∧ c ∉ a := by
  induction s generalizing a with
  | nil => cases a <;> simp [splitOnce]
  | cons d s ih =>
    by_cases hd : d = c
    · subst hd
      cases a with
      | nil => simp [splitOnce, eq_comm]
      | cons e a =>
        simp only [splitOnce, if_true, Option.some.injEq, Prod.mk.injEq, reduceCtorEq, false_and,
          false_iff, List.cons_append, List.cons.injEq, List.mem_cons, not_or]
        exact fun ⟨⟨h, _⟩, hne, _⟩ => hne h
    · simp only [splitOnce, hd, if_false, Option.map_eq_some', Prod.exists, Prod.mk.injEq]
      cases a with
      | nil =>
        exact ⟨fun ⟨_, _, _, h, _⟩ => (List.cons_ne_nil _ _ h).elim,
          fun ⟨h, _⟩ => (hd (List.cons.inj h).1).elim⟩
      | cons e a =>
        simp only [List.cons_append, List.cons.injEq, List.mem_cons, not_or]
        constructor
        · rintro ⟨a', _, h, ⟨rfl, rfl⟩, rfl⟩
          obtain ⟨hs, hn⟩ := ih.1 h
          exact ⟨⟨rfl, hs⟩, Ne.symm hd, hn⟩
        · rintro ⟨⟨rfl, hs⟩, -, hn⟩
          exact ⟨a, b, ih.2 ⟨hs, hn⟩, ⟨rfl, rfl⟩, rfl⟩

theorem splitOnce_append_cons {a : List Char} {c : Char} (b : List Char) (h : c ∉ a) :
    splitOnce (a ++ c :: b) c = some (a, b) :=
  splitOnce_eq_some_iff.2 ⟨rfl, h⟩

/-- Stripping `q` and a separator `c` from a text whose first `c` follows `p`. -/
theorem stripPrefix_append_cons_of_not_mem {p q v : List Char} {c : Char} (hp : c ∉ p)
    (hq : c ∉ q) : stripPrefix (p ++ c :: v) (q ++ [c]) = if p = q then some v else none := by
  split_ifs with h
  · subst h
    simpa using stripPrefix_append (p ++ [c]) v
  · rw [stripPrefix_eq_none_iff]
    rintro ⟨x, hx⟩
    have hsplit := splitOnce_append_cons x hq
    rw [List.append_assoc, List.singleton_append] at hx
    rw [hx, splitOnce_append_cons _ hp] at hsplit
    exact h (Prod.mk.inj (Option.some.inj hsplit)).1

end PbsCloudBackup.Text

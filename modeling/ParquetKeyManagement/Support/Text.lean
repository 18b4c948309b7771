/-
  ParquetKeyManagement.Support.Text — strings split at a character and joined by one, as
  Rust's `str::split`, `str::split_once` and `join` do.

  `split` undoes `join` for parts that are free of the separator (`split_join`), and the parts
  it answers always are (`not_mem_of_mem_split`). `splitOnce` undoes one separator behind a
  text that is free of it (`splitOnce_eq_some_iff`).
-/

import Mathlib.Data.List.TakeWhile

namespace ParquetKeyManagement.Text

variable {c d : Char} {s k rest p : String} {parts : List String}

def split (c : Char) (s : String) : List String := (s.toList.splitOn c).map String.ofList

/-- What stands before and after the first `c`. -/
def splitOnce (c : Char) (s : String) : Option (String × String) :=
  match s.toList.dropWhile (· ≠ c) with
  | [] => none
  | _ :: rest => some (String.ofList (s.toList.takeWhile (· ≠ c)), String.ofList rest)

def join (c : Char) (parts : List String) : String := (String.singleton c).intercalate parts

theorem toList_join (c : Char) (parts : List String) :
    (join c parts).toList = [c].intercalate (parts.map String.toList) := by
  unfold join
  rw [String.toList_intercalate, String.toList_singleton]

@[simp] theorem join_nil (c : Char) : join c [] = "" := rfl

/-- Separators and parts make up a joined text. -/
theorem mem_toList_join (h : d ∈ (join c parts).toList) : d = c ∨ ∃ p ∈ parts, d ∈ p.toList := by
  rw [toList_join] at h
  induction parts with
  | nil => cases h
  | cons p parts ih =>
    rcases parts with _ | ⟨q, parts⟩
    · rw [List.map_cons, List.map_nil, List.intercalate_singleton] at h
      exact Or.inr ⟨p, List.mem_singleton.mpr rfl, h⟩
    · rw [List.map_cons, List.map_cons, List.intercalate_cons_cons, List.mem_append, List.mem_append] at h
      rcases h with (h | h) | h
      · exact Or.inr ⟨p, List.mem_cons_self .., h⟩
      · exact Or.inl (List.mem_singleton.mp h)
      · rcases ih h with h | ⟨q', hq', hd⟩
        · exact Or.inl h
        · exact Or.inr ⟨q', List.mem_cons_of_mem _ hq', hd⟩

/-! ## Splitting -/

theorem split_join (h : ∀ p ∈ parts, c ∉ p.toList) (hne : parts ≠ []) : split c (join c parts) = parts := by
  have hfree : ∀ l ∈ parts.map String.toList, c ∉ l := by
    intro l hl
    obtain ⟨p, hp, rfl⟩ := List.mem_map.mp hl
    exact h p hp
  unfold split
  rw [toList_join, List.splitOn_intercalate c hfree (by simp [hne]), List.map_map]
  simp [Function.comp_def]

@[simp] theorem split_empty (c : Char) : split c "" = [""] := rfl

/-- Pieces of a split list are free of the separator, and made of the list's elements. -/
theorem mem_of_mem_splitOn {α : Type} [DecidableEq α] {x : α} {xs l : List α} (h : l ∈ xs.splitOn x) :
    x ∉ l ∧ ∀ y ∈ l, y ∈ xs := by
  induction xs generalizing l with
  | nil =>
    rw [List.splitOn_nil, List.mem_singleton] at h
    subst h
    simp
  | cons a xs ih =>
    rw [List.splitOn_cons_eq_if_modifyHead] at h
    by_cases ha : a = x
    · rw [if_pos (by simp [ha]), List.mem_cons] at h
      rcases h with rfl | h
      · simp
      · exact ⟨(ih h).1, fun y hy => List.mem_cons_of_mem _ ((ih h).2 y hy)⟩
    · rw [if_neg (by simp [ha])] at h
      obtain ⟨l0, ls, hls⟩ := List.exists_cons_of_ne_nil (List.splitOn_ne_nil x xs)
      rw [hls, List.modifyHead_cons, List.mem_cons] at h
      rcases h with rfl | h
      · obtain ⟨h1, h2⟩ := ih (l := l0) (by rw [hls]; exact List.mem_cons_self ..)
        refine ⟨fun hx => ?_, fun y hy => ?_⟩
        · rcases List.mem_cons.mp hx with hx | hx
          · exact ha hx.symm
          · exact h1 hx
        · rcases List.mem_cons.mp hy with hy | hy
          · exact hy ▸ List.mem_cons_self ..
          · exact List.mem_cons_of_mem _ (h2 y hy)
      · obtain ⟨h1, h2⟩ := ih (l := l) (by rw [hls]; exact List.mem_cons_of_mem _ h)
        exact ⟨h1, fun y hy => List.mem_cons_of_mem _ (h2 y hy)⟩

theorem not_mem_of_mem_split (h : p ∈ split c s) : c ∉ p.toList := by
  obtain ⟨l, hl, rfl⟩ := List.mem_map.mp h
  rw [String.toList_ofList]
  exact (mem_of_mem_splitOn hl).1

theorem mem_of_mem_split (h : p ∈ split c s) (hd : d ∈ p.toList) : d ∈ s.toList := by
  obtain ⟨l, hl, rfl⟩ := List.mem_map.mp h
  rw [String.toList_ofList] at hd
  exact (mem_of_mem_splitOn hl).2 d hd

/-! ## Splitting once -/

theorem splitOnce_eq_some_iff :
    splitOnce c s = some (k, rest) ↔ c ∉ k.toList ∧ s.toList = k.toList ++ c :: rest.toList := by
  unfold splitOnce
  constructor
  · intro h
    cases hd : s.toList.dropWhile (· ≠ c) with
    | nil => rw [hd] at h; cases h
    | cons x xs =>
      rw [hd] at h
      cases h
      -- the scan stopped at the separator
      have hx := List.head?_dropWhile_not (fun y : Char => decide (y ≠ c)) s.toList
      rw [hd] at hx
      obtain rfl : x = c := by simpa using hx
      rw [String.toList_ofList, String.toList_ofList, ← hd, List.takeWhile_append_dropWhile]
      refine ⟨fun hmem => ?_, rfl⟩
      simpa using List.mem_takeWhile_imp hmem
  · intro hboth
    obtain ⟨hk, hs⟩ := hboth
    have hpass : ∀ x ∈ k.toList, decide (x ≠ c) = true := by
      intro x hx
      exact decide_eq_true fun he => hk (he ▸ hx)
    rw [hs, List.dropWhile_append_of_pos hpass, List.takeWhile_append_of_pos hpass]
    simp

theorem splitOnce_eq_none_iff : splitOnce c s = none ↔ c ∉ s.toList := by
  unfold splitOnce
  cases hd : s.toList.dropWhile (· ≠ c) with
  | nil =>
    have hall := List.dropWhile_eq_nil_iff.mp hd
    refine iff_of_true rfl fun hc => ?_
    simpa using hall c hc
  | cons x xs =>
    refine iff_of_false (by simp) fun hc => ?_
    have hall : s.toList.dropWhile (· ≠ c) = [] :=
      List.dropWhile_eq_nil_iff.mpr fun y hy => decide_eq_true fun he => hc (he ▸ hy)
    rw [hd] at hall
    cases hall

end ParquetKeyManagement.Text

import Puya.Lsp.Diagnostics

/-! # The source text of a diagnostic

    `pygls` keeps each line's end in a document's `lines`
    (`splitlines(True)`), so the document's text is their concatenation
    (`source`). `_get_source_code_data` takes the lines of a range, cuts the
    last at the end column and then the first at the start column, and joins
    them with `"\n"` (`joinLines`). The cut lines are exactly the text
    between the two positions of the range: the text up to the end is the
    text up to the start followed by their concatenation
    (`getSourceCodeData_between`). Cutting the end first is what makes this
    hold for a range on one line. The join adds a newline after each line
    end, so the text returned for a range over several lines has each of its
    line breaks twice.
-/

namespace Puya.Lsp

open Puya.Arc4 (pySlice pySlice_natCast pySlice_zero)

/-! ## Section 1: Text and positions -/

/-- The text of a document whose lines, each with its line end, are
    `lines`. -/
def source (lines : List (List Char)) : List Char := lines.flatten

/-- `"\n".join(lines)`. -/
def joinLines (lines : List (List Char)) : List Char := ['\n'].intercalate lines

/-- The offset in `source lines` of column `c` of line `i`. -/
def offset : List (List Char) → Nat → Nat → Nat
  | l :: ls, i + 1, c => l.length + offset ls i c
  | _, _, c => c

/-- Lines `sl` to `el` of a document, the last cut at column `ec` and the
    first from column `sc`. -/
def rangeLines : List (List Char) → Nat → Nat → Nat → Nat → List (List Char)
  | _ :: ls, sl + 1, el + 1, sc, ec => rangeLines ls sl el sc ec
  | l :: _, 0, 0, sc, ec => [(l.take ec).drop sc]
  | l :: ls, 0, el + 1, sc, ec => l.drop sc :: rangeLines ls 0 el 0 ec
  | _, _, _, _, _ => []

@[simp] theorem source_nil : source [] = [] := rfl

@[simp] theorem source_cons (l : List Char) (ls : List (List Char)) :
    source (l :: ls) = l ++ source ls := rfl

/-- The cut lines are the text between the two positions: the text up to
    the end position is the text up to the start position followed by
    them. -/
theorem take_offset_rangeLines : ∀ {lines : List (List Char)} {sl el sc ec : Nat},
    sl ≤ el → el < lines.length → sc ≤ (lines.getD sl []).length →
      ec ≤ (lines.getD el []).length → (sl = el → sc ≤ ec) →
      (source lines).take (offset lines el ec) =
        (source lines).take (offset lines sl sc) ++ source (rangeLines lines sl el sc ec)
  | l :: ls, 0, 0, sc, ec, _, _, hsc, hec, hse => by
    simp only [List.getD_cons_zero] at hsc hec
    simp only [offset, rangeLines, source_cons, List.take_append_of_le_length hec,
      List.take_append_of_le_length hsc, source_nil, List.append_nil]
    have h := List.take_append_drop sc (l.take ec)
    rwa [List.take_take, Nat.min_eq_left (hse rfl), eq_comm] at h
  | l :: ls, 0, el + 1, sc, ec, _, hel, hsc, hec, _ => by
    simp only [List.getD_cons_zero, List.getD_cons_succ] at hsc hec
    have ih := take_offset_rangeLines (Nat.zero_le el) (by simpa using hel) (Nat.zero_le _) hec
      (fun _ => Nat.zero_le _)
    simp only [offset, List.take_zero, List.nil_append] at ih
    simp only [offset, rangeLines, source_cons, List.take_append, ih,
      List.take_append_of_le_length hsc, ← List.append_assoc, List.take_append_drop]
  | l :: ls, sl + 1, el + 1, sc, ec, hle, hel, hsc, hec, hse => by
    simp only [List.getD_cons_succ] at hsc hec
    simp only [offset, rangeLines, source_cons, List.take_append, List.append_assoc,
      take_offset_rangeLines (by omega) (by simpa using hel) hsc hec (fun h => hse (by rw [h]))]
  | [], _, _, _, _, _, hel, _, _, _ => absurd hel (Nat.not_lt_zero _)
  | _ :: _, _ + 1, 0, _, _, hle, _, _, _, _ => absurd hle (by omega)

/-! ## Section 2: What `_get_source_code_data` returns -/

theorem pyIndex_neg_one {α : Type} {xs : List α} (h : xs ≠ []) :
    pyIndex xs (-1) = .ok (xs.getLast h) := by
  have hlen : 0 < xs.length := List.length_pos.2 h
  rw [pyIndex, dif_pos (by omega), List.getLast_eq_getElem]
  congr 2
  ext
  simp only [if_pos (show (-1 : Int) < 0 by decide)]
  omega

theorem pyIndex_zero {α : Type} {xs : List α} (h : xs ≠ []) :
    pyIndex xs 0 = .ok (xs.head h) := by
  have hlen : 0 < xs.length := List.length_pos.2 h
  rw [pyIndex, dif_pos (by simp [hlen])]
  cases xs with
  | nil => exact absurd rfl h
  | cons x xs => rfl

/-- The two assignments of `_get_source_code_data`, to the last and then to
    the first of the lines `sl` to `el`, leave `rangeLines`. -/
theorem cut_eq_rangeLines : ∀ {lines : List (List Char)} {sl el : Nat} (sc ec : Nat),
    sl ≤ el → el < lines.length →
    let L := (lines.drop sl).take (el + 1 - sl)
    let L' := L.set (L.length - 1) ((L.getLast?.getD []).take ec)
    L'.set 0 ((L'.head?.getD []).drop sc) = rangeLines lines sl el sc ec
  | _ :: ls, sl + 1, el + 1, sc, ec, hle, hel => by
    simp only [List.drop_succ_cons, Nat.add_sub_add_right]
    exact cut_eq_rangeLines sc ec (Nat.le_of_succ_le_succ hle) (Nat.lt_of_succ_lt_succ hel)
  | l :: ls, 0, 0, sc, ec, _, _ => by simp [rangeLines]
  | l :: ls, 0, el + 1, sc, ec, _, hel => by
    have hM : ls.take (el + 1) ≠ [] := by simp; rintro rfl; simp at hel
    have ih := (cut_eq_rangeLines 0 ec (Nat.zero_le el) (by simpa using hel) :
      let L := (ls.drop 0).take (el + 1 - 0)
      let L' := L.set (L.length - 1) ((L.getLast?.getD []).take ec)
      L'.set 0 ((L'.head?.getD []).drop 0) = rangeLines ls 0 el 0 ec)
    obtain ⟨m, ms, hm⟩ := List.exists_cons_of_ne_nil hM
    simp only [List.drop_zero, Nat.sub_zero, List.take_succ_cons, hm, List.length_cons,
      Nat.add_sub_cancel, List.getLast?_cons_cons, List.drop_zero] at ih ⊢
    rw [rangeLines, ← ih]
    cases ms.length with
    | zero => rfl
    | succ n => rfl
  | [], _, _, _, _, _, hel => absurd hel (Nat.not_lt_zero _)
  | _ :: _, _ + 1, 0, _, _, hle, _ => absurd hle (by omega)

/-- The two assignments of `_get_source_code_data` to its slice of lines
    `L`: the last line cut at column `ec`, then the first from column `sc`. -/
def cutLines (L : List (List Char)) (sc ec : Int) : List (List Char) :=
  let L := L.set (L.length - 1) (pySlice (L.getLast?.getD []) 0 ec)
  L.set 0 (pySlice (L.head?.getD []) sc (L.head?.getD []).length)

/-- `_get_source_code_data` raises exactly when its slice of lines is
    empty, and otherwise joins the slice after the two assignments. -/
theorem getSourceCodeData_eq (ws : Workspace φ) (uri : String) (range_ : Range) :
    getSourceCodeData ws uri range_ =
      match pySlice (ws.getTextDocument uri).lines range_.start.line (range_.end_.line + 1) with
      | [] => .error (.indexError "list index out of range")
      | l :: ls =>
        .ok (joinLines (cutLines (l :: ls) range_.start.character range_.end_.character)) := by
  simp only [getSourceCodeData]
  generalize pySlice (ws.getTextDocument uri).lines range_.start.line (range_.end_.line + 1) = L
  cases L with
  | nil => rfl
  | cons l ls =>
    have hne' : ∀ x, (l :: ls).set ((l :: ls).length - 1) x ≠ [] := fun x =>
      List.ne_nil_of_length_pos (by simp)
    simp only [pyIndex_neg_one (List.cons_ne_nil l ls), pyIndex_zero (hne' _), bind, Except.bind,
      cutLines, List.getLast?_eq_getLast _ (List.cons_ne_nil l ls), Option.getD_some,
      List.head?_eq_head (hne' _)]
    rfl

/-- For a range whose lines are in the document, `_get_source_code_data`
    joins `rangeLines`. -/
theorem getSourceCodeData_natCast (ws : Workspace φ) (uri : String) {sl el : Nat} (sc ec : Nat)
    (hle : sl ≤ el) (hel : el < (ws.getTextDocument uri).lines.length) :
    getSourceCodeData ws uri ⟨⟨sl, sc⟩, ⟨el, ec⟩⟩ =
      .ok (joinLines (rangeLines (ws.getTextDocument uri).lines sl el sc ec)) := by
  have hslice : pySlice (ws.getTextDocument uri).lines (sl : Int) ((el : Int) + 1) =
      ((ws.getTextDocument uri).lines.drop sl).take (el + 1 - sl) := by
    rw [show (el : Int) + 1 = ((el + 1 : Nat) : Int) by push_cast; rfl, pySlice_natCast]
  rw [getSourceCodeData_eq, ← cut_eq_rangeLines sc ec hle hel]
  simp only [hslice]
  generalize hL : ((ws.getTextDocument uri).lines.drop sl).take (el + 1 - sl) = L
  obtain ⟨l, ls, rfl⟩ := List.exists_cons_of_ne_nil
    (List.ne_nil_of_length_pos
      (by rw [← hL]; simp only [List.length_take, List.length_drop]; omega) : L ≠ [])
  simp only [cutLines, pySlice_zero, pySlice_natCast]
  rw [List.take_of_length_le (List.length_drop _ _).le]

/-- For a range inside the document, `_get_source_code_data` joins with
    `"\n"` the pieces of the document's text between the range's two
    positions, one a line. -/
theorem getSourceCodeData_between (ws : Workspace φ) (uri : String) {sl el sc ec : Nat}
    (hle : sl ≤ el) (hel : el < (ws.getTextDocument uri).lines.length)
    (hsc : sc ≤ ((ws.getTextDocument uri).lines.getD sl []).length)
    (hec : ec ≤ ((ws.getTextDocument uri).lines.getD el []).length)
    (hse : sl = el → sc ≤ ec) :
    ∃ ps, getSourceCodeData ws uri ⟨⟨sl, sc⟩, ⟨el, ec⟩⟩ = .ok (joinLines ps) ∧
      (source (ws.getTextDocument uri).lines).take (offset (ws.getTextDocument uri).lines el ec) =
        (source (ws.getTextDocument uri).lines).take
          (offset (ws.getTextDocument uri).lines sl sc) ++ source ps :=
  ⟨_, getSourceCodeData_natCast ws uri sc ec hle hel,
    take_offset_rangeLines hle hel hsc hec hse⟩

end Puya.Lsp

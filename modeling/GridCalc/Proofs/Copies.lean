import GridCalc.Proofs.Advance
import GridCalc.Proofs.Placing

/-!
# Rows of copies as rows of clones

A line that repeats the row above it can be written as rows of clones of the cells above, and what
follows it is read alike. The table that is read then has, at each position, the same cell as
before, or a clone of the cell above in place of a copy of it: copies of such clones are such clones
again.
-/

set_option autoImplicit false

namespace GridCalc
open Text

namespace Cell

def cloneAbove : Cell := ⟨.clone .up 1, .pending⟩

section

variable {c : Cell} {d : Direction} {offset : Int}

theorem content_cloned_formula {root : NodeId} {shift : Position} {x : Float}
    (hc : c.content = .formula root shift x) :
    (c.cloned d offset).content = .formula root (shift.move d.reverse offset) 0.0 := by
  rw [cloned, hc]

theorem cloned_of_ne_formula (hc : ∀ root shift x, c.content ≠ .formula root shift x) :
    c.cloned d offset = c := by
  obtain ⟨root, shift, x, hcontent, -⟩ | ⟨-, hsame⟩ := c.cloned_cases d offset
  · exact absurd hcontent (hc root shift x)
  · exact hsame

end

end Cell

theorem Text.trim_cons {c : Char} (hc : isBlank c = false) (cs : List Char) :
    ∃ ds, trim (c :: cs) = c :: ds := by
  have hstart : trimStart (c :: cs) = c :: cs := by simp [trimStart, hc]
  rw [trim, hstart, trimEnd, List.reverse_cons, List.dropWhile_append]
  split
  · exact ⟨[], by simp [hc]⟩
  · exact ⟨(cs.reverse.dropWhile isBlank).reverse, by simp⟩

theorem Text.consFirst_eq (c : Char) (ls : List (List Char)) :
    ∃ first others, consFirst c ls = (c :: first) :: others := by
  cases ls with
  | nil => exact ⟨[], [], rfl⟩
  | cons l ls => exact ⟨l, ls, rfl⟩

namespace Line

/-- The line has `columns` cells, and each is written as a clone of the cell above it. -/
def IsClones (columns : Nat) (s : List Char) : Prop :=
  (fields '|' (trim s)).map trim = List.replicate columns [':', '^']

section

variable {s : List Char} {ss ts : List (List Char)} {l : Line} {ls ms : List Line}
  {number columns : Nat}

theorem ofText_number (h : ofText number s = .ok l) (other : Nat) : ofText other s = .ok l := by
  unfold ofText at h ⊢
  dsimp only at h ⊢
  split at h
  · next hmark =>
    rw [if_pos hmark]
    split at h
    · cases h
    · next hcount => rwa [if_neg hcount]
  · next hmark => rwa [if_neg hmark]

theorem ofTexts_cons (h : ofTexts number (s :: ss) = .ok ls) :
    ∃ l ms, ofText number s = .ok l ∧ ofTexts (number + 1) ss = .ok ms ∧ ls = l :: ms := by
  unfold ofTexts at h
  obtain ⟨l, hl, h⟩ := ok_of_bind h
  obtain ⟨ms, hms, h⟩ := ok_of_bind h
  cases h
  exact ⟨l, ms, hl, hms, rfl⟩

theorem ofTexts_number (h : ofTexts number ss = .ok ls) (other : Nat) :
    ofTexts other ss = .ok ls := by
  induction ss generalizing number other ls with
  | nil => exact h
  | cons s ss ih =>
    obtain ⟨l, ms, hl, hms, rfl⟩ := ofTexts_cons h
    rw [ofTexts, ofText_number hl other, ih hms (other + 1)]
    rfl

theorem ofTexts_append (hss : ofTexts number ss = .ok ls) :
    ofTexts number (ss ++ ts) = (ofTexts (number + ss.length) ts).map (ls ++ ·) := by
  induction ss generalizing number ls with
  | nil =>
    cases hss
    rw [List.nil_append, List.length_nil, Nat.add_zero]
    cases ofTexts number ts <;> rfl
  | cons s ss ih =>
    obtain ⟨l, ms, hl, hms, rfl⟩ := ofTexts_cons hss
    have hlength : number + (s :: ss).length = number + 1 + ss.length := by
      rw [List.length_cons]
      omega
    rw [List.cons_append, ofTexts, hl, ih hms, hlength]
    cases ofTexts (number + 1 + ss.length) ts <;> rfl

theorem IsClones.ofText (h : IsClones columns s) (number : Nat) :
    Line.ofText number s = .ok (.row (fields '|' (trim s))) := by
  unfold Line.ofText
  dsimp only
  split
  · next hmark =>
    obtain ⟨rest, hrest⟩ := List.isPrefixOf_iff_prefix.1 hmark
    unfold IsClones at h
    rw [← hrest, mark, List.cons_append, fields, if_neg (by decide)] at h
    obtain ⟨first, others, hfields⟩ := consFirst_eq '.' (fields '|' (['.', '.'] ++ rest))
    obtain ⟨ds, hds⟩ := trim_cons (c := '.') (by decide) first
    rw [hfields, List.map_cons, hds] at h
    have hfirst := List.eq_of_mem_replicate (h ▸ List.mem_cons_self)
    cases hfirst
  · rfl

theorem IsClones.length (h : IsClones columns s) : (fields '|' (trim s)).length = columns := by
  rw [← List.length_map, h, List.length_replicate]

theorem ofTexts_clones (h : ∀ s ∈ ss, IsClones columns s) (number : Nat) :
    ofTexts number ss = .ok (ss.map fun s => .row (fields '|' (trim s))) := by
  induction ss generalizing number with
  | nil => rfl
  | cons s ss ih =>
    rw [ofTexts, (h s (by simp)).ofText, ih (fun t ht => h t (by simp [ht]))]
    rfl

end

end Line

theorem columnCountOf_clones {ls ms : List Line} {n : Nat} {ss : List (List Char)}
    (hss : ∀ s ∈ ss, Line.IsClones (columnCountOf (ls ++ .copies n :: ms)) s) :
    columnCountOf (ls ++ (ss.map (fun s => .row (fields '|' (trim s))) ++ ms)) =
      columnCountOf (ls ++ .copies n :: ms) := by
  apply Nat.le_antisymm
  · refine columnCountOf_le.2 fun l hl => ?_
    rcases List.mem_append.1 hl with hl | hl
    · exact columns_le (by simp [hl])
    rcases List.mem_append.1 hl with hl | hl
    · obtain ⟨s, hs, rfl⟩ := List.mem_map.1 hl
      exact Nat.le_of_eq (hss s hs).length
    · exact columns_le (by simp [hl])
  · refine columnCountOf_le.2 fun l hl => ?_
    rcases List.mem_append.1 hl with hl | hl
    · exact columns_le (by simp [hl])
    rcases List.mem_cons.1 hl with rfl | hl
    · exact Nat.zero_le _
    · exact columns_le (by simp [hl])

namespace Draft

variable {columns : Nat} {d d' e : Draft columns}

theorem cellsFrom_clones {ts : List (List Char)} (h : ∀ t ∈ ts, trim t = [':', '^'])
    (row column : Nat) (a : Arena) :
    cellsFrom row column ts a = (.ok (List.replicate ts.length .cloneAbove), a) := by
  induction ts generalizing column with
  | nil => rfl
  | cons t ts ih =>
    have hcell : Cell.ofText ⟨row, column⟩ (String.ofList (trim t)) a = (.ok .cloneAbove, a) := by
      rw [h t (by simp)]
      rfl
    rw [cellsFrom, Action.bind_ok hcell, Action.bind_ok (ih (fun u hu => h u (by simp [hu])) _)]
    rfl

/-- The second draft has a clone of the cell above wherever it does not have the cell of the first,
and there the first has a copy of the cell above. -/
structure Unrolls (d e : Draft columns) : Prop where
  size : e.rows.size = d.rows.size
  arena : e.arena = d.arena
  log : e.log = d.log
  cell : ∀ r c, c < columns → cellIn e.rows r c = cellIn d.rows r c ∨
    ∃ above, r = above + 1 ∧ cellIn e.rows r c = some .cloneAbove ∧
      cellIn d.rows r c = (cellIn d.rows above c).map (·.cloned .up 1)

theorem Unrolls.refl (d : Draft columns) : d.Unrolls d := ⟨rfl, rfl, rfl, fun _ _ _ => .inl rfl⟩

theorem Unrolls.push (h : d.Unrolls e) {a b : Arena} (hab : b = a) {x y : Vector Cell columns}
    (hrow : ∀ c, c < columns → y[c]? = x[c]? ∨ ∃ above, d.rows.size = above + 1 ∧
      y[c]? = some .cloneAbove ∧ x[c]? = (cellIn d.rows above c).map (·.cloned .up 1)) :
    Unrolls ⟨d.rows.push x, a, d.log⟩ ⟨e.rows.push y, b, e.log⟩ := by
  refine ⟨by simp [h.size], hab, h.log, fun r c hc => ?_⟩
  dsimp only
  by_cases hr : r < d.rows.size
  · rw [cellIn_push_of_lt hr, cellIn_push_of_lt (h.size ▸ hr)]
    obtain hsame | ⟨above, rfl, hclone, hcopy⟩ := h.cell r c hc
    · exact .inl hsame
    · refine .inr ⟨above, rfl, hclone, ?_⟩
      rw [cellIn_push_of_lt (by omega), hcopy]
  · by_cases hlast : r = d.rows.size
    · have hy : cellIn (e.rows.push y) r c = y[c]? := by rw [hlast, ← h.size, cellIn_push_size]
      have hx : cellIn (d.rows.push x) r c = x[c]? := by rw [hlast, cellIn_push_size]
      rw [hx, hy]
      obtain hsame | ⟨above, habove, hclone, hcopy⟩ := hrow c hc
      · exact .inl hsame
      · refine .inr ⟨above, hlast.trans habove, hclone, ?_⟩
        rw [cellIn_push_of_lt (by omega), hcopy]
    · have hnone : ∀ rows : Array (Vector Cell columns), rows.size ≤ r → cellIn rows r c = none :=
        fun rows hsize => by rw [cellIn, Array.getElem?_eq_none hsize]; rfl
      refine .inl ?_
      rw [hnone _ (by rw [Array.size_push, h.size]; omega),
        hnone _ (by rw [Array.size_push]; omega)]

theorem Unrolls.copies (h : d.Unrolls e) (hne : 0 < d.rows.size) (n : Nat) :
    Unrolls { d with rows := repeatLast d.rows n } { e with rows := repeatLast e.rows n } := by
  induction n generalizing d e with
  | zero => exact h
  | succ n ih =>
    obtain ⟨above, habove⟩ : ∃ above, d.rows.size = above + 1 := ⟨d.rows.size - 1, by omega⟩
    refine ih (h.push h.arena fun c hc => ?_) (by simp)
    rw [Vector.getElem?_map, Vector.getElem?_map, getElem?_back habove,
      getElem?_back (h.size.trans habove)]
    obtain hsame | ⟨-, -, hclone, -⟩ := h.cell above c hc
    · exact .inl (by rw [hsame])
    · exact .inr ⟨above, habove, by rw [hclone]; rfl, rfl⟩

theorem Unrolls.clones (h : d.Unrolls e) (hne : 0 < d.rows.size) {ss : List (List Char)}
    (hss : ∀ s ∈ ss, Line.IsClones columns s) :
    ∃ e', e.addLines (ss.map fun s => .row (fields '|' (trim s))) = .ok e' ∧
      Unrolls { d with rows := repeatLast d.rows ss.length } e' := by
  induction ss generalizing d e with
  | nil => exact ⟨e, rfl, h⟩
  | cons s ss ih =>
    obtain ⟨above, habove⟩ : ∃ above, d.rows.size = above + 1 := ⟨d.rows.size - 1, by omega⟩
    have hs : Line.IsClones columns s := hss s (by simp)
    have hcells := cellsFrom_clones
      (fun t ht => List.eq_of_mem_replicate (hs ▸ List.mem_map_of_mem ht)) e.rows.size 0 e.arena
    have hpush := h.push h.arena (x := (d.rows.back?.getD (.replicate columns .empty)).map
      (·.cloned .up 1)) (y := filled columns (List.replicate columns .cloneAbove)) fun c hc => by
        refine .inr ⟨above, habove, ?_, ?_⟩
        · rw [getElem?_filled hc, List.getElem?_replicate, if_pos hc, Option.getD_some]
        · rw [Vector.getElem?_map, getElem?_back habove]
    obtain ⟨e', he', hunrolls⟩ := ih hpush (by simp) fun t ht => hss t (by simp [ht])
    refine ⟨e', ?_, hunrolls⟩
    rw [List.map_cons, addLines, addLine, hcells, hs.length]
    exact he'

theorem addLine_copies_of_pos (hne : 0 < d.rows.size) (n : Nat) :
    d.addLine (.copies n) = .ok { d with rows := repeatLast d.rows n } := by
  have hempty : ¬ d.rows.isEmpty := fun h => by simp [Array.isEmpty_iff.1 h] at hne
  rw [addLine, if_neg hempty]

theorem Unrolls.addLine {l : Line} (h : d.Unrolls e) (hne : 0 < d.rows.size)
    (hd : d.addLine l = .ok d') : ∃ e', e.addLine l = .ok e' ∧ d'.Unrolls e' := by
  cases l with
  | row texts =>
    obtain ⟨cells, a, hcells, rfl⟩ := addLine_row hd
    refine ⟨{ e with rows := e.rows.push (filled columns cells), arena := a }, ?_,
      h.push rfl fun _ _ => .inl rfl⟩
    rw [Draft.addLine, h.size, h.arena, hcells]
  | copies n =>
    rw [addLine_copies_of_pos hne] at hd
    cases hd
    exact ⟨_, addLine_copies_of_pos (h.size ▸ hne) n, h.copies hne n⟩

theorem Unrolls.addLines {ls : List Line} (h : d.Unrolls e) (hne : 0 < d.rows.size)
    (hd : d.addLines ls = .ok d') : ∃ e', e.addLines ls = .ok e' ∧ d'.Unrolls e' := by
  induction ls generalizing d e with
  | nil =>
    cases hd
    exact ⟨e, rfl, h⟩
  | cons l ls ih =>
    obtain ⟨d₁, hl, hrest⟩ := addLines_cons hd
    obtain ⟨e₁, hl', h₁⟩ := h.addLine hne hl
    obtain ⟨e', hrest', h'⟩ := ih h₁ (by rw [size_addLine hl]; omega) hrest
    refine ⟨e', ?_, h'⟩
    rw [Draft.addLines, hl']
    exact hrest'

end Draft

namespace Grid

variable {text text' : String} {g : Grid} {log : Array Event} {line : List Char}
  {before after clones : List (List Char)} {ls : List Line} {n : Nat}

/-- The second table has a clone of the cell above wherever it does not have the cell of the first,
and there the first has a copy of the cell above. -/
structure Unrolls (g h : Grid) : Prop where
  alike : g.Alike h
  cell : ∀ p, h.cellAt p = g.cellAt p ∨ g.contains p ∧ g.contains (p.move .up 1) ∧
    h.cellAt p = .cloneAbove ∧ g.cellAt p = (g.cellAt (p.move .up 1)).cloned .up 1

theorem ofText_of_addLines {columns : Nat} {d : Draft columns} (hls : Line.all text = .ok ls)
    (hcolumns : columnCountOf ls = columns) (hd : ({} : Draft columns).addLines ls = .ok d) :
    ofText text = .ok (d.toGrid, d.log) := by
  subst hcolumns
  rw [ofText, hls]
  dsimp only [bind, Except.bind]
  rw [hd]
  rfl

theorem unrolls_toGrid {columns : Nat} {d e : Draft columns} (h : d.Unrolls e) :
    d.toGrid.Unrolls e.toGrid := by
  have hlike : d.toGrid.Alike e.toGrid := ⟨h.size, rfl, h.arena⟩
  refine ⟨hlike, fun p => ?_⟩
  by_cases hp : d.toGrid.contains p
  · have hd := Draft.toGrid_cell? hp
    have he := Draft.toGrid_cell? (hlike.contains.2 hp)
    obtain ⟨⟨hrow, hrow'⟩, hcolumn, hcolumn'⟩ := id hp
    have hc : p.column.toNat < columns := by
      have hin : p.column < ((columns : Nat) : Int) := hcolumn'
      omega
    obtain hsame | ⟨above, hr, hclone, hcopy⟩ := h.cell p.row.toNat p.column.toNat hc
    · exact .inl (by rw [cellAt, cellAt, he, hd, hsame])
    · have hmove : p.move .up 1 = ⟨above, p.column⟩ := by
        simp only [Position.move, Direction.step, Position.mk.injEq]
        omega
      have hin : d.toGrid.contains ⟨above, p.column⟩ := ⟨by dsimp only; omega, hcolumn, hcolumn'⟩
      rw [hcopy, cell?_of_contains hp, eq_comm, Option.map_eq_some_iff] at hd
      obtain ⟨x, hx, hxp⟩ := hd
      have habove := (Draft.toGrid_cell? hin).trans hx
      refine .inr ⟨hp, hmove ▸ hin, cellAt_eq (he.trans hclone), ?_⟩
      rw [hmove, cellAt_eq habove, hxp]
  · exact .inl (by rw [cellAt_of_not_contains hp, hlike.cellAt_outside hp])

/-- A line that repeats the row above it may be written as rows of clones. -/
theorem ofText_unrolls (hread : ofText text = .ok (g, log))
    (htext : lines text.toList = before ++ line :: after)
    (hbefore : Line.ofTexts 1 before = .ok ls) (habove : 0 < rowCount ls)
    (hline : Line.ofText (before.length + 1) line = .ok (.copies n))
    (htext' : lines text'.toList = before ++ (clones ++ after)) (hcount : clones.length = n)
    (hclones : ∀ s ∈ clones, Line.IsClones g.columns s) :
    ∃ h, ofText text' = .ok (h, log) ∧ g.Unrolls h := by
  obtain ⟨all, d, hall, hd, rfl, rfl⟩ := ofText_ok hread
  have hclones : ∀ s ∈ clones, Line.IsClones (columnCountOf all) s := hclones
  rw [Line.all, htext, Line.ofTexts_append hbefore] at hall
  cases hrest : Line.ofTexts (1 + before.length) (line :: after) with
  | error e =>
    rw [hrest] at hall
    cases hall
  | ok rest =>
    rw [hrest] at hall
    cases hall
    obtain ⟨l, ms, hl, hms, rfl⟩ := Line.ofTexts_cons hrest
    cases hl.symm.trans (Line.ofText_number hline _)
    obtain ⟨d₀, hd₀, hlater⟩ := Draft.addLines_of_append hd
    obtain ⟨d₁, hd₁, hms'⟩ := Draft.addLines_cons hlater
    have hsize : 0 < d₀.rows.size := by
      rw [Draft.size_addLines hd₀]
      omega
    rw [Draft.addLine_copies_of_pos hsize] at hd₁
    cases hd₁
    obtain ⟨e₁, he₁, h₁⟩ := (Draft.Unrolls.refl d₀).clones hsize hclones
    rw [hcount] at h₁
    obtain ⟨e, he, h⟩ := h₁.addLines (by rw [Draft.size_repeatLast]; omega) hms'
    have hall : Line.all text' =
        .ok (ls ++ (clones.map (fun s => .row (fields '|' (trim s))) ++ ms)) := by
      rw [Line.all, htext', Line.ofTexts_append hbefore,
        Line.ofTexts_append (Line.ofTexts_clones hclones _), Line.ofTexts_number hms]
      rfl
    refine ⟨e.toGrid, ?_, unrolls_toGrid h⟩
    rw [← h.log]
    apply ofText_of_addLines hall (columnCountOf_clones hclones)
    rw [Draft.addLines_append hd₀, Draft.addLines_append he₁]
    exact he

end Grid

end GridCalc

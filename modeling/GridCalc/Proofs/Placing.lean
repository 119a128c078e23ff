import GridCalc.Grid.Reading

/-!
# Where the cells of a table stand

The rows of a table are made one after another and stay as they are: the cells of a line stand in
the first row that is not there yet, and each row of copies is made of the row just before it. So
every position has at most one text of its own, which is read when all texts before it have been.
-/

set_option autoImplicit false

namespace GridCalc
open Text

/-- The text `s` stands at `p`, and its turn to be read comes when the arena is `a`. -/
inductive StandsAt (text : String) : Position → String → Arena → Prop
  | field {ls before after : List Line} {left right : List (List Char)} {t : List Char}
      {d : Draft (columnCountOf ls)} {cells : List Cell} {a : Arena} :
      Line.all text = .ok ls → ls = before ++ .row (left ++ t :: right) :: after →
      ({} : Draft (columnCountOf ls)).addLines before = .ok d →
      Draft.cellsFrom d.rows.size 0 left d.arena = (.ok cells, a) →
      StandsAt text ⟨rowCount before, left.length⟩ (String.ofList (trim t)) a

section

variable {l : Line} {ls ms : List Line}

theorem rowCount_cons (l : Line) (ls : List Line) : rowCount (l :: ls) = l.rows + rowCount ls := by
  have hsum : ∀ n, ls.foldl (fun n l => n + l.rows) n = n + rowCount ls := by
    induction ls with
    | nil => intro n; rfl
    | cons l ls ih =>
      intro n
      rw [rowCount, List.foldl_cons, List.foldl_cons, ih, ih]
      omega
  rw [rowCount, List.foldl_cons, hsum, Nat.zero_add]

theorem rowCount_append (ls ms : List Line) : rowCount (ls ++ ms) = rowCount ls + rowCount ms := by
  induction ls with
  | nil => rw [List.nil_append]; exact (Nat.zero_add _).symm
  | cons l ls ih => rw [List.cons_append, rowCount_cons, rowCount_cons, ih, Nat.add_assoc]

theorem columnCountOf_le {n : Nat} :
    columnCountOf ls ≤ n ↔ ∀ l ∈ ls, l.columns ≤ n := by
  have hfold : ∀ m, ls.foldl (fun n l => max n l.columns) m ≤ n ↔
      m ≤ n ∧ ∀ l ∈ ls, l.columns ≤ n := by
    induction ls with
    | nil => simp
    | cons l ls ih =>
      intro m
      rw [List.foldl_cons, ih, Nat.max_le, and_assoc, List.forall_mem_cons]
  exact (hfold 0).trans (by simp)

theorem columns_le (h : l ∈ ls) : l.columns ≤ columnCountOf ls :=
  columnCountOf_le.1 (Nat.le_refl _) l h

end

namespace Draft

variable {columns : Nat}

def cellIn (rows : Array (Vector Cell columns)) (r c : Nat) : Option Cell :=
  rows[r]?.bind (·[c]?)

section

variable {rows : Array (Vector Cell columns)} {row : Vector Cell columns} {r c n : Nat}

theorem cellIn_push_of_lt (h : r < rows.size) : cellIn (rows.push row) r c = cellIn rows r c := by
  rw [cellIn, cellIn, Array.getElem?_push, if_neg (Nat.ne_of_lt h)]

theorem cellIn_push_size : cellIn (rows.push row) rows.size c = row[c]? := by
  rw [cellIn, Array.getElem?_push, if_pos rfl, Option.bind_some]

theorem lt_of_cellIn {x : Cell} (h : cellIn rows r c = some x) : r < rows.size ∧ c < columns := by
  obtain ⟨row, hrow, hcell⟩ := Option.bind_eq_some_iff.1 h
  exact ⟨(Array.getElem?_eq_some_iff.1 hrow).1, (Vector.getElem?_eq_some_iff.1 hcell).1⟩

theorem getElem?_filled {cells : List Cell} (h : c < columns) :
    (filled columns cells)[c]? = some (cells[c]?.getD .empty) := by
  rw [filled, Vector.getElem?_ofFn, dif_pos h, Array.getD_eq_getD_getElem?, List.getElem?_toArray]

theorem size_repeatLast : (repeatLast rows n).size = rows.size + n := by
  induction n generalizing rows with
  | zero => rfl
  | succ n ih => rw [repeatLast, ih, Array.size_push, Nat.add_assoc, Nat.add_comm 1]

theorem cellIn_repeatLast_of_lt (h : r < rows.size) :
    cellIn (repeatLast rows n) r c = cellIn rows r c := by
  induction n generalizing rows with
  | zero => rfl
  | succ n ih =>
    rw [repeatLast, ih (by rw [Array.size_push]; omega), cellIn_push_of_lt h]

theorem getElem?_back (hr : rows.size = r + 1) {otherwise : Vector Cell columns} :
    (rows.back?.getD otherwise)[c]? = cellIn rows r c := by
  rw [cellIn, Array.back?_eq_getElem?, hr, Nat.add_sub_cancel,
    Array.getElem?_eq_getElem (by omega : r < rows.size), Option.getD_some, Option.bind_some]

theorem cellIn_repeatLast (hne : 0 < rows.size) (hr : rows.size ≤ r + 1)
    (hn : r + 1 < rows.size + n) :
    cellIn (repeatLast rows n) (r + 1) c =
      (cellIn (repeatLast rows n) r c).map (·.cloned .up 1) := by
  induction n generalizing rows with
  | zero => omega
  | succ n ih =>
    rw [repeatLast]
    by_cases hlast : rows.size = r + 1
    · have hsize : ∀ row : Vector Cell columns, (rows.push row).size = r + 2 := by
        simp [Array.size_push, hlast]
      rw [cellIn_repeatLast_of_lt (by rw [hsize]; omega),
        cellIn_repeatLast_of_lt (by rw [hsize]; omega), cellIn_push_of_lt (r := r) (by omega),
        ← hlast, cellIn_push_size, Vector.getElem?_map, getElem?_back hlast]
    · exact ih (by rw [Array.size_push]; omega) (by rw [Array.size_push]; omega)
        (by rw [Array.size_push]; omega)

end

section

variable {row column : Nat} {t : List Char} {ts us : List (List Char)} {a b e : Arena}
  {cells others : List Cell}

theorem cellsFrom_cons (h : cellsFrom row column (t :: ts) a = (.ok cells, b)) :
    ∃ first e rest, Cell.ofText ⟨row, column⟩ (String.ofList (trim t)) a = (.ok first, e) ∧
      cellsFrom row (column + 1) ts e = (.ok rest, b) ∧ cells = first :: rest := by
  unfold cellsFrom at h
  obtain ⟨first, e, hfirst, h⟩ := Action.ok_of_bind h
  obtain ⟨rest, b', hrest, h⟩ := Action.ok_of_bind h
  cases h
  exact ⟨first, e, rest, hfirst, hrest, rfl⟩

theorem cellsFrom_append (hts : cellsFrom row column ts a = (.ok cells, b))
    (hus : cellsFrom row (column + ts.length) us b = (.ok others, e)) :
    cellsFrom row column (ts ++ us) a = (.ok (cells ++ others), e) := by
  induction ts generalizing column a cells with
  | nil =>
    cases hts
    exact hus
  | cons t ts ih =>
    obtain ⟨first, c, rest, hfirst, hrest, rfl⟩ := cellsFrom_cons hts
    have hnext := ih hrest (by rw [Nat.add_assoc, Nat.add_comm 1]; exact hus)
    rw [List.cons_append, cellsFrom, Action.bind_ok hfirst, Action.bind_ok hnext]
    rfl

end

section

variable {d e : Draft columns} {l : Line} {ls ms : List Line}

theorem addLine_row {texts : List (List Char)} (h : d.addLine (.row texts) = .ok e) :
    ∃ cells a, cellsFrom d.rows.size 0 texts d.arena = (.ok cells, a) ∧
      e = { d with rows := d.rows.push (filled columns cells), arena := a } := by
  unfold addLine at h
  dsimp only at h
  rcases hc : cellsFrom d.rows.size 0 texts d.arena with ⟨r, a⟩
  rw [hc] at h
  cases r with
  | error stop => cases h
  | ok cells =>
    cases h
    exact ⟨cells, a, rfl, rfl⟩

theorem addLine_copies {n : Nat} (h : d.addLine (.copies n) = .ok e) :
    e.arena = d.arena ∧ (d.rows = #[] ∧
      e.rows = Array.replicate n (Vector.replicate columns (.ofFault .nothingAbove)) ∨
      0 < d.rows.size ∧ e.rows = repeatLast d.rows n) := by
  unfold addLine at h
  dsimp only at h
  split at h
  · next hempty =>
    cases h
    exact ⟨rfl, .inl ⟨Array.isEmpty_iff.1 hempty, rfl⟩⟩
  · next hempty =>
    cases h
    exact ⟨rfl, .inr ⟨Array.size_pos_iff.2 fun h => hempty (Array.isEmpty_iff.2 h), rfl⟩⟩

theorem size_addLine (h : d.addLine l = .ok e) : e.rows.size = d.rows.size + l.rows := by
  cases l with
  | row texts =>
    obtain ⟨cells, a, -, rfl⟩ := addLine_row h
    exact Array.size_push _
  | copies n =>
    obtain ⟨-, ⟨hd, he⟩ | ⟨-, he⟩⟩ := addLine_copies h
    · rw [he, hd, Array.size_replicate]
      exact (Nat.zero_add n).symm
    · rw [he, size_repeatLast]
      rfl

theorem addLines_cons (h : d.addLines (l :: ls) = .ok e) :
    ∃ e', d.addLine l = .ok e' ∧ e'.addLines ls = .ok e := by
  unfold addLines at h
  exact ok_of_bind h

theorem addLines_append (hls : d.addLines ls = .ok e) :
    d.addLines (ls ++ ms) = e.addLines ms := by
  induction ls generalizing d with
  | nil =>
    cases hls
    rfl
  | cons l ls ih =>
    obtain ⟨e', hl, hrest⟩ := addLines_cons hls
    rw [List.cons_append, addLines, hl]
    exact ih hrest

theorem addLines_of_append (h : d.addLines (ls ++ ms) = .ok e) :
    ∃ e', d.addLines ls = .ok e' ∧ e'.addLines ms = .ok e := by
  induction ls generalizing d with
  | nil => exact ⟨d, rfl, h⟩
  | cons l ls ih =>
    obtain ⟨d', hl, hrest⟩ := addLines_cons h
    obtain ⟨e', hls, hms⟩ := ih hrest
    refine ⟨e', ?_, hms⟩
    rw [addLines, hl]
    exact hls

theorem size_addLines (h : d.addLines ls = .ok e) : e.rows.size = d.rows.size + rowCount ls := by
  induction ls generalizing d with
  | nil =>
    cases h
    rfl
  | cons l ls ih =>
    obtain ⟨e', hl, hrest⟩ := addLines_cons h
    rw [ih hrest, size_addLine hl, rowCount_cons, Nat.add_assoc]

theorem toGrid_cell? {p : Position} (hp : d.toGrid.contains p) :
    d.toGrid.cell? p = cellIn d.rows p.row.toNat p.column.toNat := by
  have hrow : d.toGrid.cells[p.row.toNat]? = d.toGrid.cells.toArray[p.row.toNat]? :=
    Vector.getElem?_toArray.symm
  rw [Grid.cell?, if_pos hp, Rows.at?, cellIn, hrow]
  rfl

end

end Draft

namespace Grid

variable {text : String} {g : Grid} {log : Array Event}

theorem ofText_ok (h : ofText text = .ok (g, log)) :
    ∃ ls d, Line.all text = .ok ls ∧ ({} : Draft (columnCountOf ls)).addLines ls = .ok d ∧
      g = d.toGrid ∧ log = d.log := by
  unfold ofText at h
  obtain ⟨ls, hls, h⟩ := ok_of_bind h
  obtain ⟨d, hd, h⟩ := ok_of_bind h
  cases h
  exact ⟨ls, d, hls, hd, rfl, rfl⟩

theorem contains_of_standsAt (h : ofText text = .ok (g, log)) {p : Position} {s : String}
    {a : Arena} (hp : StandsAt text p s a) : g.contains p := by
  obtain ⟨ls, e, hls, he, rfl, -⟩ := ofText_ok h
  cases hp with
  | @field _ before after left right t d cells _ hls' hsplit hd hcells =>
    cases hls.symm.trans hls'
    have hrows := Draft.size_addLines he
    have hcolumns : (Line.row (left ++ t :: right)).columns ≤ columnCountOf ls :=
      columns_le (by rw [hsplit]; simp)
    have hrow : rowCount ls = rowCount before + (1 + rowCount after) := by
      rw [hsplit, rowCount_append, rowCount_cons]
      rfl
    simp only [Line.columns, List.length_append, List.length_cons] at hcolumns
    have hsize : (({} : Draft (columnCountOf ls))).rows.size = 0 := rfl
    show (_ ∧ _ < ((e.rows.size : Nat) : Int)) ∧ _ ∧ _ < ((columnCountOf ls : Nat) : Int)
    dsimp only
    omega

end Grid

end GridCalc

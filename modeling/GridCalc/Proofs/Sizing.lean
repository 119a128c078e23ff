import GridCalc.Proofs.Copies

/-!
# Tables filled place by place

The size of a table is counted from the lines of its text before a cell is read. Then the lines are
gone through once more, and the cells are put into one run of places, as many for each row as there
are columns; a row of copies is made by looking at the places of the row before it. Both passes come
to the same number of rows, no place is looked at that is not one of the table, and what has been
filled in at the end are the rows as they are made one after another.
-/

set_option autoImplicit false

namespace GridCalc
open Text

/-- A table that is being filled. -/
structure Slate where
  content : Array Cell
  row : Nat := 0
  arena : Arena := .empty
  log : Array Event := #[]
  /-- The rows and columns of the places that have been looked at or changed, the last one first. -/
  touched : List (Nat × Nat) := []

namespace Slate

def blank (rows columns : Nat) : Slate := { content := Array.replicate (rows * columns) .empty }

section

variable (columns : Nat)

def place (row column : Nat) : Nat := row * columns + column

def touch (s : Slate) (row column : Nat) : Slate := { s with touched := (row, column) :: s.touched }

def load (row column : Nat) : Action Slate Cell := fun s =>
  (.ok (s.content.getD (place columns row column) .empty), s.touch row column)

def store (row column : Nat) (c : Cell) : Action Slate Unit := Action.modify fun s =>
  { s.touch row column with content := s.content.setIfInBounds (place columns row column) c }

def readCell (row column : Nat) (t : List Char) : Action Slate Cell := fun s =>
  let (cell, arena) := Cell.ofText ⟨row, column⟩ (String.ofList (trim t)) s.arena
  (cell, { s with arena })

def copyAbove (row column : Nat) : Action Slate Cell := do
  let above ← load columns (row - 1) column
  pure (above.cloned .up 1)

def fillRow {ι : Type} (make : Nat → ι → Action Slate Cell) (row : Nat) :
    Nat → List ι → Action Slate Unit
  | _, [] => pure ()
  | column, x :: xs => do
    let c ← make column x
    store columns row column c
    fillRow make row (column + 1) xs

def nextRow : Action Slate Unit := Action.modify fun s => { s with row := s.row + 1 }

def fillRows (make : Nat → Nat → Action Slate Cell) : Nat → Action Slate Unit
  | 0 => pure ()
  | n + 1 => do
    let s ← Action.get
    fillRow columns (fun column _ => make s.row column) s.row 0 (List.replicate columns ())
    nextRow
    fillRows make n

def fillLine : Line → Action Slate Unit
  | .row texts => do
    let s ← Action.get
    fillRow columns (readCell s.row) s.row 0 texts
    nextRow
  | .copies n => do
    let s ← Action.get
    if s.row = 0 then do
      Action.modify fun s => { s with log := s.log.push .repeatAboveTable }
      fillRows columns (fun _ _ => pure (.ofFault .nothingAbove)) n
    else fillRows columns (copyAbove columns) n

def fillLines (number : Nat) : List (List Char) → Action Slate Unit
  | [] => pure ()
  | t :: ts => do
    let l ← Action.ofExcept (Line.ofText number t)
    fillLine columns l
    fillLines (number + 1) ts

def fill (text : String) : Action Slate Unit := fillLines columns 1 (lines text.toList)

end

section

variable {rows columns r c r' c' : Nat}

theorem place_lt (hr : r < rows) (hc : c < columns) : place columns r c < rows * columns := by
  have hrow : (r + 1) * columns ≤ rows * columns := Nat.mul_le_mul_right columns hr
  rw [Nat.succ_mul] at hrow
  unfold place
  omega

theorem place_injective (hc : c < columns) (hc' : c' < columns)
    (h : place columns r c = place columns r' c') : r = r' ∧ c = c' := by
  -- Rows do not overlap.
  have hpos : 0 < columns := Nat.lt_of_le_of_lt (Nat.zero_le c) hc
  have hdiv : ∀ r c, c < columns → place columns r c / columns = r := fun r c hc => by
    rw [place, Nat.add_comm, Nat.add_mul_div_right _ _ hpos, Nat.div_eq_of_lt hc, Nat.zero_add]
  have hrow : r = r' := by rw [← hdiv r c hc, h, hdiv r' c' hc']
  subst hrow
  unfold place at h
  exact ⟨rfl, by omega⟩

end

def Within (rows columns : Nat) (s : Slate) : Prop := ∀ q ∈ s.touched, q.1 < rows ∧ q.2 < columns

/-- The slate shows the rows, and has empty places where there are none yet. -/
structure Shows (rows : Nat) {columns : Nat} (s : Slate) (made : Array (Vector Cell columns)) :
    Prop where
  size : s.content.size = rows * columns
  cell : ∀ r c, r < rows → c < columns →
    s.content[place columns r c]? = some ((Draft.cellIn made r c).getD .empty)
  within : s.Within rows columns

structure Steady (s t : Slate) : Prop where
  row : t.row = s.row
  arena : t.arena = s.arena
  log : t.log = s.log

structure Agrees (rows : Nat) {columns : Nat} (s : Slate) (d : Draft columns) : Prop where
  shows : s.Shows rows d.rows
  row : s.row = d.rows.size
  arena : s.arena = d.arena
  log : s.log = d.log

/-- Filling a slate goes as making the rows goes. -/
inductive Keeps (rows : Nat) {columns : Nat} (x : Except Stop (Draft columns)) :
    Except Stop Unit × Slate → Prop
  | filled {d : Draft columns} {t : Slate} : x = .ok d → t.Agrees rows d → Keeps rows x (.ok (), t)
  | stopped {e : Stop} {t : Slate} : x = .error e → t.Within rows columns →
      Keeps rows x (.error e, t)

section

variable {rows columns : Nat} {s t : Slate} {made : Array (Vector Cell columns)} {done : List Cell}

theorem Within.touch (h : s.Within rows columns) {r c : Nat} (hr : r < rows) (hc : c < columns) :
    (s.touch r c).Within rows columns := List.forall_mem_cons.2 ⟨⟨hr, hc⟩, h⟩

theorem cellIn_of_le {r c : Nat} (h : made.size ≤ r) : Draft.cellIn made r c = none := by
  rw [Draft.cellIn, Array.getElem?_eq_none h]
  rfl

theorem Shows.begin (h : s.Shows rows made) :
    s.Shows rows (made.push (Draft.filled columns [])) := by
  refine ⟨h.size, fun r c hr hc => ?_, h.within⟩
  rw [h.cell r c hr hc]
  by_cases hlt : r < made.size
  · rw [Draft.cellIn_push_of_lt hlt]
  · rw [cellIn_of_le (Nat.le_of_not_lt hlt)]
    by_cases hlast : r = made.size
    · rw [hlast, Draft.cellIn_push_size, Draft.getElem?_filled hc]
      rfl
    · rw [cellIn_of_le (by rw [Array.size_push]; omega)]

theorem cellIn_filled_append {r c : Nat} {x : Cell} (hc : c < columns)
    (hne : r = made.size → c ≠ done.length) :
    Draft.cellIn (made.push (Draft.filled columns (done ++ [x]))) r c =
      Draft.cellIn (made.push (Draft.filled columns done)) r c := by
  by_cases hlt : r < made.size
  · rw [Draft.cellIn_push_of_lt hlt, Draft.cellIn_push_of_lt hlt]
  · by_cases hlast : r = made.size
    · have hget : (done ++ [x])[c]? = done[c]? := by
        rw [List.getElem?_append]
        split
        · rfl
        · next hle =>
          have hcolumn := hne hlast
          rw [List.getElem?_eq_none (by rw [List.length_singleton]; omega),
            List.getElem?_eq_none (by omega)]
      rw [hlast, Draft.cellIn_push_size, Draft.cellIn_push_size, Draft.getElem?_filled hc,
        Draft.getElem?_filled hc, hget]
    · rw [cellIn_of_le (by rw [Array.size_push]; omega),
        cellIn_of_le (by rw [Array.size_push]; omega)]

theorem Shows.store (h : s.Shows rows (made.push (Draft.filled columns done)))
    (hr : made.size < rows) (hc : done.length < columns) (x : Cell) :
    ∃ t, Slate.store columns made.size done.length x s = (.ok (), t) ∧
      t.Shows rows (made.push (Draft.filled columns (done ++ [x]))) ∧ s.Steady t := by
  refine ⟨_, rfl, ⟨?_, fun r c hr' hc' => ?_, h.within.touch hr hc⟩, rfl, rfl, rfl⟩
  · exact (Array.size_setIfInBounds ..).trans h.size
  · dsimp only
    by_cases hplace : place columns made.size done.length = place columns r c
    · obtain ⟨rfl, rfl⟩ := place_injective hc hc' hplace
      have hlt : place columns made.size done.length < s.content.size := h.size ▸ place_lt hr hc
      rw [Array.getElem?_setIfInBounds_self_of_lt hlt, Draft.cellIn_push_size,
        Draft.getElem?_filled hc]
      simp
    · have hcell : s.content[place columns r c]? = _ := h.cell r c hr' hc'
      rw [Array.getElem?_setIfInBounds_ne hplace, cellIn_filled_append hc']
      · exact hcell
      · rintro rfl rfl
        exact hplace rfl

theorem fillRow_texts {ts : List (List Char)} {r : Except Stop Unit}
    (h : s.Shows rows (made.push (Draft.filled columns done))) (hr : made.size < rows)
    (hc : done.length + ts.length ≤ columns)
    (hrun : fillRow columns (readCell made.size) made.size done.length ts s = (r, t)) :
    t.row = s.row ∧ t.log = s.log ∧
      ((∃ cells, Draft.cellsFrom made.size done.length ts s.arena = (.ok cells, t.arena) ∧
          r = .ok () ∧ t.Shows rows (made.push (Draft.filled columns (done ++ cells)))) ∨
        ∃ e, Draft.cellsFrom made.size done.length ts s.arena = (.error e, t.arena) ∧
          r = .error e ∧ t.Within rows columns) := by
  induction ts generalizing s done with
  | nil =>
    cases hrun
    exact ⟨rfl, rfl, .inl ⟨[], rfl, rfl, by rwa [List.append_nil]⟩⟩
  | cons u ts ih =>
    rw [List.length_cons] at hc
    unfold fillRow at hrun
    unfold Draft.cellsFrom
    rcases hcell : Cell.ofText ⟨made.size, done.length⟩ (String.ofList (trim u)) s.arena with ⟨v, a⟩
    have hread : readCell made.size done.length u s = (v, { s with arena := a }) := by
      rw [readCell, hcell]
    cases v with
    | error e =>
      rw [Action.bind_error hread] at hrun
      cases hrun
      exact ⟨rfl, rfl, .inr ⟨e, Action.bind_error hcell, rfl, h.within⟩⟩
    | ok c =>
      rw [Action.bind_ok hread] at hrun
      rw [Action.bind_ok hcell]
      have hshows : Shows rows { s with arena := a } (made.push (Draft.filled columns done)) :=
        ⟨h.size, h.cell, h.within⟩
      obtain ⟨w, hstore, hw, hrow, harena, hlog⟩ := hshows.store hr (by omega) c
      rw [Action.bind_ok hstore] at hrun
      have hlength : (done ++ [c]).length = done.length + 1 := by simp
      rw [← hlength] at hrun
      obtain ⟨htrow, htlog, hrest⟩ := ih hw (by omega) hrun
      rw [hlength, harena] at hrest
      refine ⟨htrow.trans hrow, htlog.trans hlog, ?_⟩
      obtain ⟨cells, hcells, rfl, ht⟩ | ⟨e, he, rfl, ht⟩ := hrest
      · refine .inl ⟨c :: cells, ?_, rfl, by rwa [List.append_assoc] at ht⟩
        rw [Action.bind_ok hcells]
        rfl
      · exact .inr ⟨e, Action.bind_error he, rfl, ht⟩

theorem Steady.trans {u : Slate} (hs : s.Steady t) (ht : t.Steady u) : s.Steady u :=
  ⟨ht.row.trans hs.row, ht.arena.trans hs.arena, ht.log.trans hs.log⟩

/-- Given the rows that have been made, the cell in a column of the row after them is made, and
nothing but places of the table is looked at for it. -/
def Makes (rows : Nat) {columns : Nat} (make : Nat → Nat → Action Slate Cell)
    (made : Array (Vector Cell columns)) (new : Vector Cell columns) : Prop :=
  ∀ (s : Slate) (done : List Cell), s.Shows rows (made.push (Draft.filled columns done)) →
    ∀ hc : done.length < columns, ∃ t, make made.size done.length s = (.ok new[done.length], t) ∧
      t.Shows rows (made.push (Draft.filled columns done)) ∧ s.Steady t

theorem filled_toList (new : Vector Cell columns) : Draft.filled columns new.toList = new := by
  ext c hc
  have hget : (Draft.filled columns new.toList)[c]? = some (new.toList[c]?.getD .empty) :=
    Draft.getElem?_filled hc
  simpa [hc] using hget

theorem fillRow_made {make : Nat → Nat → Action Slate Cell} {new : Vector Cell columns} {n : Nat}
    (hmake : Makes rows make made new) (hr : made.size < rows) (hn : done.length + n = columns)
    (hdone : done = new.toList.take done.length)
    (h : s.Shows rows (made.push (Draft.filled columns done))) :
    ∃ t, fillRow columns (fun column _ => make made.size column) made.size done.length
        (List.replicate n ()) s = (.ok (), t) ∧ t.Shows rows (made.push new) ∧ s.Steady t := by
  induction n generalizing s done with
  | zero =>
    have hall : done = new.toList := by
      rw [hdone, List.take_of_length_le (by simp; omega)]
    rw [hall, filled_toList] at h
    exact ⟨s, rfl, h, rfl, rfl, rfl⟩
  | succ n ih =>
    have hc : done.length < columns := by omega
    obtain ⟨u, hmade, hu, hsu⟩ := hmake s done h hc
    obtain ⟨v, hstore, hv, huv⟩ := hu.store hr hc new[done.length]
    have hlength : (done ++ [new[done.length]]).length = done.length + 1 := by simp
    have htake : done ++ [new[done.length]] = new.toList.take (done.length + 1) := by
      rw [List.take_add_one, ← hdone]
      simp [hc]
    obtain ⟨t, hrest, ht, hvt⟩ := ih (by omega) (by rw [hlength]; exact htake) hv
    refine ⟨t, ?_, ht, hsu.trans (huv.trans hvt)⟩
    rw [List.replicate_succ, fillRow, Action.bind_ok hmade, Action.bind_ok hstore, ← hlength]
    exact hrest

def grown (next : Array (Vector Cell columns) → Vector Cell columns) :
    Array (Vector Cell columns) → Nat → Array (Vector Cell columns)
  | made, 0 => made
  | made, n + 1 => grown next (made.push (next made)) n

theorem repeatLast_eq_grown (n : Nat) :
    Draft.repeatLast made n =
      grown (fun made => (made.back?.getD (.replicate columns .empty)).map (·.cloned .up 1))
        made n := by
  induction n generalizing made with
  | zero => rfl
  | succ n ih => exact ih

theorem append_replicate_eq_grown (new : Vector Cell columns) (n : Nat) :
    made ++ Array.replicate n new = grown (fun _ => new) made n := by
  induction n generalizing made with
  | zero => simp [grown]
  | succ n ih =>
    rw [grown, ← ih]
    apply Array.ext'
    simp [List.replicate_succ]

/-- As many rows are filled as are made, each of which may look at those before it. -/
theorem fillRows_made {make : Nat → Nat → Action Slate Cell} {d : Draft columns} {m n : Nat}
    {next : Array (Vector Cell columns) → Vector Cell columns}
    (hmake : ∀ made, m ≤ made.size → made.size < rows → Makes rows make made (next made))
    (hm : m ≤ d.rows.size) (hn : d.rows.size + n ≤ rows) (h : s.Agrees rows d) :
    ∃ t, fillRows columns make n s = (.ok (), t) ∧
      t.Agrees rows { d with rows := grown next d.rows n } := by
  induction n generalizing s d with
  | zero => exact ⟨s, rfl, h⟩
  | succ n ih =>
    have hr : d.rows.size < rows := by omega
    obtain ⟨u, hrow, hu, hsu⟩ :=
      fillRow_made (n := columns) (hmake d.rows hm hr) hr (by simp) (by simp)
      h.shows.begin
    have hagrees : Agrees rows { u with row := u.row + 1 }
        { d with rows := d.rows.push (next d.rows) } :=
      ⟨⟨hu.size, hu.cell, hu.within⟩, by simp [hsu.row, h.row], hsu.arena.trans h.arena,
        hsu.log.trans h.log⟩
    obtain ⟨t, hrest, ht⟩ := ih (by simp; omega) (by simp; omega) hagrees
    refine ⟨t, ?_, ht⟩
    have hget : (Action.get : Action Slate Slate) s = (.ok s, s) := rfl
    have hnext : nextRow u = (.ok (), { u with row := u.row + 1 }) := rfl
    rw [List.length_nil] at hrow
    rw [fillRows, Action.bind_ok hget, h.row, Action.bind_ok hrow, Action.bind_ok hnext]
    exact hrest

theorem makes_fault (f : Fault) :
    Makes rows (fun _ _ => pure (.ofFault f)) made (.replicate columns (.ofFault f)) :=
  fun s done h hc => ⟨s, by rw [Vector.getElem_replicate]; rfl, h, rfl, rfl, rfl⟩

theorem makes_copyAbove (hpos : 0 < made.size) (hr : made.size < rows) :
    Makes rows (copyAbove columns) made
      ((made.back?.getD (.replicate columns .empty)).map (·.cloned .up 1)) := by
  intro s done h hc
  obtain ⟨above, habove⟩ : ∃ above, made.size = above + 1 := ⟨made.size - 1, by omega⟩
  have hget : (made.back?.getD (.replicate columns .empty))[done.length]? =
      Draft.cellIn made above done.length := Draft.getElem?_back habove
  refine ⟨s.touch above done.length, ?_, ⟨h.size, h.cell, h.within.touch (by omega) hc⟩,
    rfl, rfl, rfl⟩
  have hcell := h.cell above done.length (by omega) hc
  rw [Draft.cellIn_push_of_lt (by omega), ← hget, Vector.getElem?_eq_getElem hc, Option.getD_some]
    at hcell
  have hload : load columns (made.size - 1) done.length s =
      (.ok (made.back?.getD (.replicate columns .empty))[done.length],
        s.touch above done.length) := by
    rw [load, habove, Nat.add_sub_cancel, Array.getD_eq_getD_getElem?, hcell, Option.getD_some]
  rw [copyAbove, Action.bind_ok hload, Vector.getElem_map]
  rfl

variable {d : Draft columns} {l : Line}

theorem fillLine_keeps (h : s.Agrees rows d) (hr : d.rows.size + l.rows ≤ rows)
    (hc : l.columns ≤ columns) : Keeps rows (d.addLine l) (fillLine columns l s) := by
  have hget : (Action.get : Action Slate Slate) s = (.ok s, s) := rfl
  cases l with
  | row texts =>
    have hlt : d.rows.size < rows := hr
    rw [fillLine, Action.bind_ok hget, h.row, Draft.addLine, ← h.arena]
    rcases hrun : fillRow columns (readCell d.rows.size) d.rows.size 0 texts s with ⟨r, u⟩
    obtain ⟨hrow, hlog, hend⟩ :=
      fillRow_texts h.shows.begin hlt (by simpa [Line.columns] using hc) hrun
    rw [List.length_nil] at hend
    obtain ⟨cells, hcells, rfl, hu⟩ | ⟨e, he, rfl, hu⟩ := hend
    · have hnext : nextRow u = (.ok (), { u with row := u.row + 1 }) := rfl
      rw [Action.bind_ok hrun, hnext, hcells]
      exact .filled rfl
        ⟨⟨hu.size, hu.cell, hu.within⟩, by simp [hrow, h.row], rfl, hlog.trans h.log⟩
    · rw [Action.bind_error hrun, he]
      exact .stopped rfl hu
  | copies n =>
    have hr : d.rows.size + n ≤ rows := hr
    rw [fillLine, Action.bind_ok hget, Draft.addLine]
    by_cases hzero : s.row = 0
    · have hempty : d.rows = #[] := Array.eq_empty_of_size_eq_zero (h.row.symm.trans hzero)
      have hnote :
          (Action.modify fun s : Slate => { s with log := s.log.push .repeatAboveTable }) s =
          (.ok (), { s with log := s.log.push .repeatAboveTable }) := rfl
      have hagrees : Agrees rows { s with log := s.log.push .repeatAboveTable }
          { d with log := d.log.push .repeatAboveTable } :=
        ⟨⟨h.shows.size, h.shows.cell, h.shows.within⟩, h.row, h.arena,
          congrArg (·.push Event.repeatAboveTable) h.log⟩
      obtain ⟨t, hfill, ht⟩ := fillRows_made (m := 0)
        (d := { d with log := d.log.push .repeatAboveTable })
        (fun made _ _ => makes_fault .nothingAbove) (Nat.zero_le _) hr hagrees
      rw [if_pos hzero, if_pos (by rw [hempty]; rfl), Action.bind_ok hnote, hfill]
      rw [← append_replicate_eq_grown, hempty, Array.empty_append] at ht
      exact .filled rfl ht
    · have hpos : 0 < d.rows.size := by
        have hrow := h.row
        omega
      obtain ⟨t, hfill, ht⟩ := fillRows_made (m := 1)
        (fun made hm hr => makes_copyAbove hm hr) hpos hr h
      rw [← repeatLast_eq_grown] at ht
      rw [if_neg hzero,
        if_neg (by simpa [Array.isEmpty_iff_size_eq_zero] using Nat.ne_of_gt hpos), hfill]
      exact .filled rfl ht

/-- Both passes go by the same lines, so that what has been counted is what is filled. -/
theorem fillLines_keeps {number : Nat} {texts : List (List Char)} {ls : List Line}
    (hls : Line.ofTexts number texts = .ok ls) (h : s.Agrees rows d)
    (hr : d.rows.size + rowCount ls ≤ rows) (hc : columnCountOf ls ≤ columns) :
    Keeps rows (d.addLines ls) (fillLines columns number texts s) := by
  induction texts generalizing number ls s d with
  | nil =>
    cases hls
    exact .filled rfl h
  | cons text texts ih =>
    obtain ⟨l, ms, hl, hms, rfl⟩ := Line.ofTexts_cons hls
    rw [rowCount_cons] at hr
    have hline :
        (Action.ofExcept (Line.ofText number text) : Action Slate Line) s = (.ok l, s) := by
      rw [Action.ofExcept, hl]
    rw [fillLines, Action.bind_ok hline, Draft.addLines]
    have hkeeps := fillLine_keeps h (by omega) (Nat.le_trans (columns_le List.mem_cons_self) hc)
    rcases hfill : fillLine columns l s with ⟨r, t⟩
    rw [hfill] at hkeeps
    cases hkeeps with
    | @filled d' _ hd ht =>
      rw [Action.bind_ok hfill, hd]
      have hsize := Draft.size_addLine hd
      exact ih hms ht (by omega)
        (columnCountOf_le.2 fun m hm => Nat.le_trans (columns_le (List.mem_cons_of_mem l hm)) hc)
    | stopped he ht =>
      rw [Action.bind_error hfill, he]
      exact .stopped rfl ht

theorem agrees_blank (rows columns : Nat) :
    (blank rows columns).Agrees rows ({} : Draft columns) := by
  refine ⟨⟨Array.size_replicate, fun r c hr hc => ?_, nofun⟩, rfl, rfl, rfl⟩
  rw [cellIn_of_le (Nat.zero_le r), blank, Array.getElem?_replicate, if_pos (place_lt hr hc)]
  rfl

theorem Agrees.toGrid (h : s.Agrees rows d) (hrows : d.rows.size = rows) :
    Grid.ofCells rows columns s.content.toList s.arena = d.toGrid := by
  subst hrows
  rw [Grid.ofCells, Draft.toGrid, h.arena]
  congr 1
  ext r hr c hc
  have hcell : s.content[r * columns + c]? = _ := h.shows.cell r c hr hc
  rw [Draft.cellIn, Array.getElem?_eq_getElem hr, Option.bind_some, Vector.getElem?_eq_getElem hc,
    Option.getD_some] at hcell
  simpa [Array.getD_eq_getD_getElem?] using congrArg (·.getD Cell.empty) hcell

end

end Slate

def rowTexts (row : Nat) : Nat → List (List Char) → List (Position × String)
  | _, [] => []
  | column, t :: ts => (⟨row, column⟩, String.ofList (trim t)) :: rowTexts row (column + 1) ts

/-- The texts of all cells that have one, in the order in which they are read, the lines beginning
in the given row. -/
def cellTexts (row : Nat) : List Line → List (Position × String)
  | [] => []
  | .row texts :: ls => rowTexts row 0 texts ++ cellTexts (row + 1) ls
  | .copies n :: ls => cellTexts (row + n) ls

def readCells : List (Position × String) → Action Arena (List Cell)
  | [] => pure []
  | (p, t) :: rest => do
    let c ← Cell.ofText p t
    let cells ← readCells rest
    pure (c :: cells)

/-- The table that the lines describe: each text is read at its own position, in reading order;
short rows are filled up with empty cells; a row of copies is made of the row above it, and of
faults where there is none. -/
structure Grid.Described (ls : List Line) (g : Grid) : Prop where
  rows : g.rows = rowCount ls
  columns : g.columns = columnCountOf ls
  read : ∃ cells, readCells (cellTexts 0 ls) .empty = (.ok cells, g.arena) ∧
    cells.length = (cellTexts 0 ls).length ∧
    ∀ x ∈ (cellTexts 0 ls).zip cells, g.cell? x.1.1 = some x.2
  padding : ∀ before texts after, ls = before ++ .row texts :: after → ∀ c : Nat,
    texts.length ≤ c → c < g.columns → g.cell? ⟨rowCount before, c⟩ = some .empty
  copies : ∀ before n after, ls = before ++ .copies n :: after → ∀ i < n, ∀ c : Nat, c < g.columns →
    g.cell? ⟨(rowCount before + i : Nat), c⟩ =
      if rowCount before = 0 then some (.ofFault .nothingAbove)
      else (g.cell? ⟨((rowCount before + i : Nat) : Int) - 1, c⟩).map (·.cloned .up 1)

theorem readCells_cons {x : Position × String} {xs : List (Position × String)} {cells : List Cell}
    {a b : Arena} (h : readCells (x :: xs) a = (.ok cells, b)) :
    ∃ c e rest, Cell.ofText x.1 x.2 a = (.ok c, e) ∧ readCells xs e = (.ok rest, b) ∧
      cells = c :: rest := by
  unfold readCells at h
  obtain ⟨c, e, hx, h⟩ := Action.ok_of_bind h
  obtain ⟨rest, b', hxs, h⟩ := Action.ok_of_bind h
  cases h
  exact ⟨c, e, rest, hx, hxs, rfl⟩

theorem readCells_length {xs : List (Position × String)} {cells : List Cell} {a b : Arena}
    (h : readCells xs a = (.ok cells, b)) : cells.length = xs.length := by
  induction xs generalizing a cells with
  | nil =>
    cases h
    rfl
  | cons x xs ih =>
    obtain ⟨c, e, rest, -, hrest, rfl⟩ := readCells_cons h
    rw [List.length_cons, List.length_cons, ih hrest]

theorem readCells_append {xs ys : List (Position × String)} {cells others : List Cell}
    {a b e : Arena} (hxs : readCells xs a = (.ok cells, b))
    (hys : readCells ys b = (.ok others, e)) :
    readCells (xs ++ ys) a = (.ok (cells ++ others), e) := by
  induction xs generalizing a cells with
  | nil =>
    cases hxs
    exact hys
  | cons x xs ih =>
    obtain ⟨c, a', rest, hc, hrest, rfl⟩ := readCells_cons hxs
    rw [List.cons_append, readCells, Action.bind_ok hc, Action.bind_ok (ih hrest)]
    rfl

theorem length_rowTexts (row column : Nat) (ts : List (List Char)) :
    (rowTexts row column ts).length = ts.length := by
  induction ts generalizing column with
  | nil => rfl
  | cons t ts ih => rw [rowTexts, List.length_cons, List.length_cons, ih]

theorem mem_zip_rowTexts {row column : Nat} {ts : List (List Char)} {cells : List Cell}
    {x : (Position × String) × Cell} (h : x ∈ (rowTexts row column ts).zip cells) :
    ∃ i : Nat, x.1.1 = ⟨row, (column + i : Nat)⟩ ∧ cells[i]? = some x.2 := by
  induction ts generalizing column cells with
  | nil => simp [rowTexts] at h
  | cons t ts ih =>
    cases cells with
    | nil => simp at h
    | cons c cells =>
      rw [rowTexts, List.zip_cons_cons] at h
      rcases List.mem_cons.1 h with rfl | h
      · exact ⟨0, rfl, rfl⟩
      · obtain ⟨i, hp, hc⟩ := ih h
        exact ⟨i + 1, by rw [hp, Nat.add_assoc, Nat.add_comm 1], hc⟩

namespace Draft

variable {columns : Nat} {d e : Draft columns} {l : Line} {ls : List Line}

theorem cellIn_addLine {r : Nat} (h : d.addLine l = .ok e) (hr : r < d.rows.size) (c : Nat) :
    cellIn e.rows r c = cellIn d.rows r c := by
  cases l with
  | row texts =>
    obtain ⟨cells, a, -, rfl⟩ := addLine_row h
    exact cellIn_push_of_lt hr
  | copies n =>
    obtain ⟨-, ⟨hd, -⟩ | ⟨-, he⟩⟩ := addLine_copies h
    · simp [hd] at hr
    · rw [he, cellIn_repeatLast_of_lt hr]

theorem cellIn_addLines {r : Nat} (h : d.addLines ls = .ok e) (hr : r < d.rows.size) (c : Nat) :
    cellIn e.rows r c = cellIn d.rows r c := by
  induction ls generalizing d with
  | nil =>
    cases h
    rfl
  | cons l ls ih =>
    obtain ⟨d', hl, hrest⟩ := addLines_cons h
    have hsize := size_addLine hl
    rw [ih hrest (by omega), cellIn_addLine hl hr]

theorem cellsFrom_eq (row column : Nat) (ts : List (List Char)) :
    cellsFrom row column ts = readCells (rowTexts row column ts) := by
  induction ts generalizing column with
  | nil => rfl
  | cons t ts ih => rw [cellsFrom, rowTexts, readCells, ih]

theorem addLines_read (h : d.addLines ls = .ok e) (hc : columnCountOf ls ≤ columns) :
    ∃ cells, readCells (cellTexts d.rows.size ls) d.arena = (.ok cells, e.arena) ∧
      ∀ x ∈ (cellTexts d.rows.size ls).zip cells, ∃ r c : Nat, x.1.1 = ⟨r, c⟩ ∧
        cellIn e.rows r c = some x.2 := by
  induction ls generalizing d with
  | nil =>
    cases h
    exact ⟨[], rfl, by simp [cellTexts]⟩
  | cons l ls ih =>
    obtain ⟨d', hl, hrest⟩ := addLines_cons h
    have hsize := size_addLine hl
    obtain ⟨later, hread, hlater⟩ := ih hrest
      (columnCountOf_le.2 fun m hm => Nat.le_trans (columns_le (List.mem_cons_of_mem l hm)) hc)
    rw [hsize] at hread hlater
    cases l with
    | row texts =>
      obtain ⟨cells, a, hcells, rfl⟩ := addLine_row hl
      rw [cellsFrom_eq] at hcells
      refine ⟨cells ++ later, readCells_append hcells hread, fun x hx => ?_⟩
      rw [cellTexts, List.zip_append (readCells_length hcells).symm] at hx
      rcases List.mem_append.1 hx with hx | hx
      · obtain ⟨i, hp, hcell⟩ := mem_zip_rowTexts hx
        have hi : i < columns := by
          have hlt := (List.getElem?_eq_some_iff.1 hcell).1
          have hcolumns : (Line.row texts).columns ≤ columns :=
            Nat.le_trans (columns_le List.mem_cons_self) hc
          rw [readCells_length hcells, length_rowTexts] at hlt
          exact Nat.lt_of_lt_of_le hlt hcolumns
        refine ⟨d.rows.size, 0 + i, hp, ?_⟩
        rw [cellIn_addLines hrest (by simp), cellIn_push_size, Nat.zero_add,
          getElem?_filled hi, hcell]
        rfl
      · exact hlater x hx
    | copies n =>
      obtain ⟨harena, -⟩ := addLine_copies hl
      rw [harena] at hread
      exact ⟨later, hread, hlater⟩

theorem toGrid_cellIn (r c : Nat) : d.toGrid.cell? ⟨r, c⟩ = cellIn d.rows r c := by
  by_cases hp : d.toGrid.contains ⟨r, c⟩
  · rw [toGrid_cell? hp]
    rfl
  · rw [Grid.cell?, if_neg hp, eq_comm, Option.eq_none_iff_forall_ne_some]
    intro x hx
    obtain ⟨hr, hc⟩ := lt_of_cellIn hx
    refine hp ⟨⟨Int.natCast_nonneg r, Int.ofNat_lt.2 hr⟩, Int.natCast_nonneg c, Int.ofNat_lt.2 hc⟩

theorem addLines_split {before after : List Line}
    (h : ({} : Draft columns).addLines (before ++ l :: after) = .ok e) :
    ∃ d d' : Draft columns, d.rows.size = rowCount before ∧ d.addLine l = .ok d' ∧
      ∀ r c, r < d'.rows.size → cellIn e.rows r c = cellIn d'.rows r c := by
  obtain ⟨d, hd, hrest⟩ := addLines_of_append h
  obtain ⟨d', hl, hafter⟩ := addLines_cons hrest
  have hsize := size_addLines hd
  exact ⟨d, d', hsize.trans (Nat.zero_add _), hl, fun r c hr => cellIn_addLines hafter hr c⟩

theorem padding_addLine {texts : List (List Char)} {c : Nat} (h : d.addLine (.row texts) = .ok e)
    (hc : texts.length ≤ c) (hlt : c < columns) : cellIn e.rows d.rows.size c = some .empty := by
  obtain ⟨cells, a, hcells, rfl⟩ := addLine_row h
  rw [cellsFrom_eq] at hcells
  have hlength := readCells_length hcells
  rw [length_rowTexts] at hlength
  rw [cellIn_push_size, getElem?_filled hlt, List.getElem?_eq_none (by omega)]
  rfl

theorem copies_addLine {n i c : Nat} (h : d.addLine (.copies n) = .ok e) (hi : i < n)
    (hc : c < columns) :
    (d.rows.size = 0 ∧ cellIn e.rows (d.rows.size + i) c = some (.ofFault .nothingAbove)) ∨
      ∃ r, r + 1 = d.rows.size + i ∧ 0 < d.rows.size ∧
        cellIn e.rows (r + 1) c = (cellIn e.rows r c).map (·.cloned .up 1) := by
  obtain ⟨-, ⟨hd, he⟩ | ⟨hpos, he⟩⟩ := addLine_copies h
  · refine .inl ⟨by rw [hd]; rfl, ?_⟩
    rw [he, hd, cellIn]
    simp [hi, hc]
  · obtain ⟨r, hr⟩ : ∃ r, d.rows.size + i = r + 1 := ⟨d.rows.size + i - 1, by omega⟩
    refine .inr ⟨r, hr.symm, hpos, ?_⟩
    rw [he]
    exact cellIn_repeatLast hpos (by omega) (by omega)

theorem described_toGrid (h : ({} : Draft columns).addLines ls = .ok e)
    (hcolumns : columnCountOf ls = columns) : Grid.Described ls e.toGrid := by
  refine ⟨(size_addLines h).trans (Nat.zero_add _), hcolumns.symm, ?_, ?_, ?_⟩
  · obtain ⟨cells, hread, hcells⟩ := addLines_read h (Nat.le_of_eq hcolumns)
    refine ⟨cells, hread, readCells_length hread, fun x hx => ?_⟩
    obtain ⟨r, c, hp, hcell⟩ := hcells x hx
    rw [hp, toGrid_cellIn, hcell]
  · rintro before texts after rfl c hc hlt
    obtain ⟨d, d', hd, hl, hkeep⟩ := addLines_split h
    have hsize := size_addLine hl
    rw [toGrid_cellIn, ← hd, hkeep _ _ (by rw [hsize]; exact Nat.lt_succ_self _)]
    exact padding_addLine hl hc hlt
  · rintro before n after rfl i hi c hlt
    obtain ⟨d, d', hd, hl, hkeep⟩ := addLines_split h
    have hsize : d'.rows.size = d.rows.size + n := size_addLine hl
    rw [toGrid_cellIn, ← hd, hkeep _ _ (by omega)]
    obtain ⟨hzero, hcell⟩ | ⟨r, hr, hpos, hcell⟩ := copies_addLine hl hi hlt
    · rw [if_pos hzero, hcell]
    · have hint : ((d.rows.size + i : Nat) : Int) - 1 = (r : Nat) := by omega
      rw [if_neg (Nat.ne_of_gt hpos), hint, toGrid_cellIn, hkeep _ _ (by omega), ← hr, hcell]

end Draft

namespace Grid

variable {text : String} {ls : List Line} {rows columns : Nat}

theorem tableSize_ok (h : tableSize text = .ok (rows, columns)) :
    ∃ ls, Line.all text = .ok ls ∧ rowCount ls = rows ∧ columnCountOf ls = columns := by
  obtain ⟨ls, hls, hsize⟩ := map_ok h
  cases hsize
  exact ⟨ls, hls, rfl, rfl⟩

theorem ofText_of_unsized {e : Stop} (h : tableSize text = .error e) : ofText text = .error e := by
  unfold tableSize at h
  cases hls : Line.all text with
  | error stop =>
    rw [hls] at h
    cases h
    rw [ofText, hls]
    rfl
  | ok ls =>
    rw [hls] at h
    cases h

theorem ofText_of_stopped {e : Stop} (hls : Line.all text = .ok ls)
    (h : ({} : Draft (columnCountOf ls)).addLines ls = .error e) : ofText text = .error e := by
  rw [ofText, hls]
  dsimp only [bind, Except.bind]
  rw [h]

theorem fill_keeps (hls : Line.all text = .ok ls) :
    Slate.Keeps (rowCount ls) (({} : Draft (columnCountOf ls)).addLines ls)
      (Slate.fill (columnCountOf ls) text (.blank (rowCount ls) (columnCountOf ls))) :=
  Slate.fillLines_keeps hls (Slate.agrees_blank _ _) (Nat.le_of_eq (Nat.zero_add _)) (Nat.le_refl _)

/-- The two passes over a text agree. If its lines cannot be counted, there is no table. Otherwise
the second pass touches no place outside of a table of the size that has been counted; it ends as
reading the table ends, and then it has filled as many rows as have been counted; and the table is
the one that the lines describe. -/
theorem ofText_sized (text : String) :
    (∀ e, tableSize text = .error e → ofText text = .error e) ∧
      ∀ rows columns, tableSize text = .ok (rows, columns) →
        ∃ r s, Slate.fill columns text (.blank rows columns) = (r, s) ∧ s.Within rows columns ∧
          (∀ e, r = .error e → ofText text = .error e) ∧
          (r = .ok () → s.row = rows ∧ s.content.size = rows * columns ∧
            ofText text = .ok (ofCells rows columns s.content.toList s.arena, s.log)) ∧
          ∀ g log, ofText text = .ok (g, log) → g.rows = rows ∧ g.columns = columns ∧
            ∃ ls, Line.all text = .ok ls ∧ g.Described ls := by
  refine ⟨fun e => ofText_of_unsized, fun rows columns hsize => ?_⟩
  obtain ⟨ls, hls, rfl, rfl⟩ := tableSize_ok hsize
  have htable : ∀ g log, ofText text = .ok (g, log) → g.rows = rowCount ls ∧
      g.columns = columnCountOf ls ∧ ∃ ls, Line.all text = .ok ls ∧ g.Described ls := by
    intro g log h
    obtain ⟨ms, d, hms, hd, rfl, -⟩ := ofText_ok h
    obtain rfl : ls = ms := Except.ok.inj (hls.symm.trans hms)
    have hdescribed := Draft.described_toGrid hd rfl
    exact ⟨hdescribed.rows, rfl, ls, hls, hdescribed⟩
  rcases hrun : Slate.fill (columnCountOf ls) text (.blank (rowCount ls) (columnCountOf ls))
    with ⟨r, s⟩
  have hkeeps := fill_keeps hls
  rw [hrun] at hkeeps
  refine ⟨r, s, rfl, ?_⟩
  cases hkeeps with
  | @filled d _ hd hs =>
    have hrows : d.rows.size = rowCount ls := (Draft.size_addLines hd).trans (Nat.zero_add _)
    refine ⟨hs.shows.within, nofun, fun _ => ⟨hs.row.trans hrows, hs.shows.size, ?_⟩, htable⟩
    rw [hs.toGrid hrows, hs.log]
    exact ofText_of_addLines hls rfl hd
  | @stopped e _ he hs =>
    refine ⟨hs, ?_, nofun, htable⟩
    rintro _ ⟨⟩
    exact ofText_of_stopped hls he

theorem ofText_sized_copies :
    tableSize "=>|b\n...1\nc" = .ok (3, 2) ∧
      (∃ s, Slate.fill 2 "=>|b\n...1\nc" (.blank 3 2) = (.ok (), s) ∧ s.Within 3 2 ∧ s.row = 3 ∧
        ofText "=>|b\n...1\nc" = .ok (ofCells 3 2 s.content.toList s.arena, s.log) ∧
        s.content[2]? = some ⟨.formula 0 ⟨1, 0⟩ 0.0, .pending⟩ ∧ s.content[5]? = some .empty) ∧
      tableSize "b\n...x" = .error (.fault (.malformedRepeat "x" 2)) ∧
      ofText "b\n...x" = .error (.fault (.malformedRepeat "x" 2)) := by
  have hsize : tableSize "=>|b\n...1\nc" = .ok (3, 2) := by decide +kernel
  have hrun : (Slate.fill 2 "=>|b\n...1\nc" (.blank 3 2)).1 = .ok () := by decide +kernel
  have hunsized : tableSize "b\n...x" = .error (.fault (.malformedRepeat "x" 2)) := by
    decide +kernel
  obtain ⟨r, s, hfill, hwithin, -, hdone, -⟩ := (ofText_sized "=>|b\n...1\nc").2 3 2 hsize
  obtain ⟨rfl, rfl⟩ := Prod.ext_iff.1 hfill
  obtain ⟨hrow, -, htable⟩ := hdone hrun
  exact ⟨hsize, ⟨_, Prod.ext hrun rfl, hwithin, hrow, htable, by decide +kernel, by decide +kernel⟩,
    hunsized, (ofText_sized "b\n...x").1 _ hunsized⟩

end Grid

end GridCalc

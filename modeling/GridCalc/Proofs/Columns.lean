import GridCalc.Output.Rendering
import GridCalc.Proofs.Fields

/-!
# A table that is shown, split back

What a table shows is split at its line breaks into rows and at its bars into cells again: no cell
shows a line break or a bar, and blanks at the ends of a cell are those that align it. Every cell
of a column is as wide as the longest, so the bars of all rows stand in line.
-/

set_option autoImplicit false

namespace GridCalc

namespace Text

variable {cs piece rest : List Char} {sep : Char}

theorem fields_of_not_mem (h : sep ∉ piece) : fields sep piece = [piece] := by
  induction piece with
  | nil => rfl
  | cons c cs ih =>
    rw [fields, if_neg (List.ne_of_not_mem_cons h).symm, ih (List.not_mem_of_not_mem_cons h)]
    rfl

theorem fields_append (h : sep ∉ piece) :
    fields sep (piece ++ sep :: rest) = piece :: fields sep rest := by
  induction piece with
  | nil => rw [List.nil_append, fields, if_pos rfl]
  | cons c cs ih =>
    rw [List.cons_append, fields, if_neg (List.ne_of_not_mem_cons h).symm,
      ih (List.not_mem_of_not_mem_cons h)]
    rfl

theorem lines_flatMap {ls : List (List Char)} (h : ∀ l ∈ ls, ∀ c ∈ l, isLineBreak c = false) :
    lines (ls.flatMap (· ++ ['\n'])) = ls := by
  have hline : ∀ {l : List Char}, (∀ c ∈ l, isLineBreak c = false) → ∀ rest,
      lines (l ++ '\n' :: rest) = l :: lines rest := by
    intro l hl rest
    induction l with
    | nil => rfl
    | cons c cs ih =>
      obtain ⟨hc, hcs⟩ := List.forall_mem_cons.1 hl
      have hreturn : c ≠ '\r' := by
        rintro rfl
        cases hc
      rw [List.cons_append, lines, if_neg (by simp [hc]), ih hcs]
      · rfl
      · exact fun _ hcr _ => hreturn hcr
  induction ls with
  | nil => rfl
  | cons l ls ih =>
    obtain ⟨hl, hls⟩ := List.forall_mem_cons.1 h
    rw [List.flatMap_cons, List.append_assoc, List.singleton_append, hline hl, ih hls]

theorem trim_space (cs : List Char) : trim (' ' :: cs) = trim cs := by
  rw [trim, trimStart, List.dropWhile_cons_of_pos isBlank_space]
  rfl

theorem trim_append_space (cs : List Char) : trim (cs ++ [' ']) = trim cs := by
  rw [trim, trimStart, List.dropWhile_append]
  split
  · next hblank =>
    rw [trim, trimStart, List.isEmpty_iff.1 hblank]
    rfl
  · rw [trimEnd, List.reverse_append, List.reverse_singleton, List.singleton_append,
      List.dropWhile_cons_of_pos isBlank_space]
    rfl

theorem trim_alignRight (width : ℕ) (cs : List Char) : trim (alignRight width cs) = trim cs := by
  rw [alignRight]
  induction width - cs.length with
  | zero => rfl
  | succ n ih => rw [List.replicate_succ, List.cons_append, trim_space, ih]

theorem trim_consFirst (pieces : List (List Char)) (h : pieces ≠ []) :
    (consFirst ' ' pieces).map trim = pieces.map trim := by
  cases pieces with
  | nil => exact absurd rfl h
  | cons piece pieces => simp [consFirst, trim_space]

end Text

namespace Grid
open Text

section

variable {parts : List (List Char)}

theorem intercalate_cons (p q : List Char) (ps : List (List Char)) :
    bar.intercalate (p :: q :: ps) = p ++ ' ' :: '|' :: ' ' :: bar.intercalate (q :: ps) := by
  rw [List.intercalate_cons_cons]
  simp [bar]

theorem fields_intercalate (hne : parts ≠ []) (h : ∀ p ∈ parts, '|' ∉ p) :
    (fields '|' (bar.intercalate parts)).map trim = parts.map trim := by
  induction parts with
  | nil => exact absurd rfl hne
  | cons p ps ih =>
    obtain ⟨hp, hps⟩ := List.forall_mem_cons.1 h
    cases ps with
    | nil => simp [fields_of_not_mem hp]
    | cons q ps =>
      have hspaced : '|' ∉ p ++ [' '] := by simp [hp]
      have hsplit : p ++ ' ' :: '|' :: ' ' :: bar.intercalate (q :: ps) =
          (p ++ [' ']) ++ '|' :: (' ' :: bar.intercalate (q :: ps)) := by simp
      rw [intercalate_cons, hsplit, fields_append hspaced, List.map_cons, trim_append_space, fields,
        if_neg (by decide), trim_consFirst _ (fields_ne_nil _ _), ih (List.cons_ne_nil q ps) hps,
        List.map_cons (f := trim) (a := p)]

def barPlace : List ℕ → ℕ → ℕ
  | [], _ => 0
  | w :: _, 0 => w + 1
  | w :: ws, n + 1 => w + 3 + barPlace ws n

/-- A bar stands behind as many columns as there are bars before it. -/
theorem bar_place {widths : List ℕ} (hwidths : parts.map List.length <+: widths)
    (h : ∀ p ∈ parts, '|' ∉ p) {i : ℕ} (hi : (bar.intercalate parts)[i]? = some '|') :
    i = barPlace widths (((bar.intercalate parts).take i).count '|') := by
  induction parts generalizing widths i with
  | nil => simp at hi
  | cons p ps ih =>
    obtain ⟨hp, hps⟩ := List.forall_mem_cons.1 h
    cases ps with
    | nil =>
      rw [List.intercalate_singleton] at hi
      exact absurd (List.mem_of_getElem? hi) hp
    | cons q ps =>
      cases widths with
      | nil => simp at hwidths
      | cons w ws =>
        rw [List.map_cons, List.cons_prefix_cons] at hwidths
        obtain ⟨rfl, hwidths⟩ := hwidths
        rw [intercalate_cons] at hi ⊢
        by_cases hlt : i < p.length
        · rw [List.getElem?_append_left hlt] at hi
          exact absurd (List.mem_of_getElem? hi) hp
        · obtain ⟨k, rfl⟩ := Nat.exists_eq_add_of_le (not_lt.1 hlt)
          rw [List.getElem?_append_right (Nat.le_add_right _ k), Nat.add_sub_cancel_left] at hi
          rw [List.take_length_add_append, List.count_append, List.count_eq_zero.2 hp]
          -- the cell is followed by a blank, the bar and another blank
          match k, hi with
          | 0, hi => simp at hi
          | 1, _ => rfl
          | 2, hi => simp at hi
          | k + 3, hi =>
            have hplace := ih hwidths hps (i := k) hi
            have hcount : List.count '|' (List.take (k + 3)
                (' ' :: '|' :: ' ' :: bar.intercalate (q :: ps))) =
                ((bar.intercalate (q :: ps)).take k).count '|' + 1 := by
              simp [List.take_succ_cons]
            rw [hcount, Nat.zero_add, barPlace, ← hplace]
            omega

end

section

variable {c : Cell} {text : String} {width : ℕ}

theorem length_aligned (h : text.length ≤ width) : (aligned width c text).length = width := by
  rw [aligned, length_alignRight]
  split
  · rw [List.length_replicate, max_self]
  · rw [String.length_toList, max_eq_left h]

theorem inline_aligned (h : IsField text.toList) : Inline (aligned width c text) := by
  have hplain : ∀ {c : Char} (n : ℕ), isPlainText c → Inline (List.replicate n c) :=
    fun n hc => inline_of_isPlainText fun d hd => List.eq_of_mem_replicate hd ▸ hc
  rw [aligned, alignRight, inline_append]
  refine ⟨hplain _ (by decide), ?_⟩
  split
  · exact hplain _ (by decide)
  · exact h.inline

theorem trim_aligned (h : IsField text.toList) : trim (aligned width c text) =
    if c.content.isSeparator then List.replicate width '_' else text.toList := by
  rw [aligned, trim_alignRight]
  split
  · exact trim_of_solid fun d hd => List.eq_of_mem_replicate hd ▸ by decide
  · exact h.trimmed

end

/-- The last column of a row that is not empty, or the first. -/
structure EndsAt (g : Grid) (r last : ℕ) : Prop where
  inside : last < g.columns
  filled : last = 0 ∨ g.content ⟨r, last⟩ ≠ .empty
  empty : ∀ c, last < c → c < g.columns → g.content ⟨r, c⟩ = .empty

variable {g : Grid} {settings : Settings}

theorem isEmptyAt_iff {p : Position} (hp : g.contains p) :
    g.isEmptyAt p ↔ g.content p = .empty := by
  rw [isEmptyAt, cell?_of_contains hp, content]
  show (g.cellAt p).content.isEmpty = true ↔ _
  generalize (g.cellAt p).content = content
  cases content <;> simp [Content.isEmpty]

theorem contains_of_lt {r c : ℕ} (hr : r < g.rows) (hc : c < g.columns) : g.contains ⟨r, c⟩ :=
  ⟨⟨Int.natCast_nonneg r, Int.ofNat_lt.2 hr⟩, Int.natCast_nonneg c, Int.ofNat_lt.2 hc⟩

theorem endsAt_lastFilled {r n : ℕ} (hr : r < g.rows) (hn : n < g.columns)
    (hempty : ∀ c, n < c → c < g.columns → g.content ⟨r, c⟩ = .empty) :
    g.EndsAt r (g.lastFilled r n) := by
  induction n with
  | zero => exact ⟨hn, .inl rfl, hempty⟩
  | succ n ih =>
    have hin := contains_of_lt hr hn
    unfold lastFilled
    split
    · next hlast =>
      refine ih (Nat.lt_of_succ_lt hn) fun c hc hcolumns => ?_
      obtain rfl | hlt := Nat.eq_or_lt_of_le (Nat.succ_le_of_lt hc)
      · exact (isEmptyAt_iff hin).1 (by simpa using hlast)
      · exact hempty c hlt hcolumns
    · next hlast =>
      exact ⟨hn, .inr fun he => hlast (by simpa using (isEmptyAt_iff hin).2 he), hempty⟩

section

variable {α : Type} {l : List α}

theorem alignedRow_map (w : α → ℕ) (cell : α → Cell) (text : α → String) :
    alignedRow (l.map w) (l.map cell) (l.map text) =
      l.map fun x => aligned (w x) (cell x) (text x) := by
  induction l with
  | nil => rfl
  | cons x l ih => simp only [List.map_cons, alignedRow, ih]

theorem widen_map (w : α → ℕ) (text : α → String) :
    widen (l.map w) (l.map text) = l.map fun x => max (w x) (text x).length := by
  induction l with
  | nil => rfl
  | cons x l ih => simp only [List.map_cons, widen, ih]

end

theorem widthsOf_map (rows columns : ℕ) (shown : ℕ → ℕ → String) :
    widthsOf columns ((List.range rows).map fun r => (List.range columns).map (shown r)) =
      (List.range columns).map fun c => (Finset.range rows).sup fun r => (shown r c).length := by
  induction rows with
  | zero => simp [widthsOf, List.map_const']
  | succ rows ih =>
    rw [widthsOf] at ih ⊢
    rw [List.range_succ, List.map_append, List.foldl_append, ih, List.map_singleton,
      List.foldl_cons, List.foldl_nil, widen_map]
    refine List.map_congr_left fun c _ => ?_
    rw [Finset.range_add_one, Finset.sup_insert, max_comm]

theorem renderRows_map (widths : List ℕ) (n k : ℕ) (cells : ℕ → List Cell)
    (texts : ℕ → List String) :
    g.renderRows widths n ((List.range' n k).map cells) ((List.range' n k).map texts) =
      ((List.range' n k).map fun r => g.renderRow widths r (cells r) (texts r)).flatMap
        (· ++ ['\n']) := by
  induction k generalizing n with
  | zero => rfl
  | succ k ih =>
    rw [List.range'_succ, List.map_cons, List.map_cons, List.map_cons, renderRows, ih,
      List.flatMap_cons, List.append_assoc, List.singleton_append]

theorem cells_eq (g : Grid) : g.cells.toList.map (·.toList) =
    (List.range g.rows).map fun (r : ℕ) =>
      (List.range g.columns).map fun (c : ℕ) => g.cellAt ⟨r, c⟩ := by
  refine List.ext_getElem (by simp) fun r hr _ => List.ext_getElem (by simp) fun c hc _ => ?_
  have hr : r < g.rows := by simpa using hr
  have hc : c < g.columns := by simpa using hc
  have hcell : g.cell? ⟨r, c⟩ = some g.cells[r][c] := by
    rw [cell?, if_pos (contains_of_lt hr hc)]
    simp [Rows.at?, hr, hc]
  simp only [List.getElem_map, List.getElem_range, Vector.getElem_toList]
  exact (cellAt_eq hcell).symm

theorem mapM_ok {ε α β : Type} {f : α → Except ε β} {k : α → β} {l : List α} {ys : List β}
    (hk : ∀ x y, f x = .ok y → k x = y) (h : l.mapM f = .ok ys) :
    (∀ x ∈ l, f x = .ok (k x)) ∧ ys = l.map k := by
  induction l generalizing ys with
  | nil =>
    cases h
    exact ⟨nofun, rfl⟩
  | cons x l ih =>
    rw [List.mapM_cons] at h
    obtain ⟨y, hx, h⟩ := ok_of_bind h
    obtain ⟨zs, hl, h⟩ := ok_of_bind h
    cases h
    obtain ⟨hall, rfl⟩ := ih hl
    obtain rfl := hk x y hx
    exact ⟨List.forall_mem_cons.2 ⟨hx, hall⟩, rfl⟩

def textAt (settings : Settings) (g : Grid) (r c : ℕ) : String :=
  match (g.cellAt ⟨r, c⟩).text settings with
  | .ok text => text
  | .error _ => ""

theorem textAt_eq {r c : ℕ} {text : String} (h : (g.cellAt ⟨r, c⟩).text settings = .ok text) :
    g.textAt settings r c = text := by
  rw [textAt, h]

theorem texts_ok {texts : List (List String)} (h : g.texts settings = .ok texts) :
    (∀ r < g.rows, ∀ c < g.columns,
      (g.cellAt ⟨r, c⟩).text settings = .ok (g.textAt settings r c)) ∧
    texts = (List.range g.rows).map fun r => (List.range g.columns).map (g.textAt settings r) := by
  have hrows : g.texts settings = (List.range g.rows).mapM fun (r : ℕ) =>
      (List.range g.columns).mapM fun (c : ℕ) => (g.cellAt ⟨r, c⟩).text settings := by
    have hcells : g.texts settings =
        (g.cells.toList.map (·.toList)).mapM (·.mapM (·.text settings)) := by
      rw [List.mapM_map]
      rfl
    rw [hcells, cells_eq, List.mapM_map]
    refine congrArg (List.mapM · _) (funext fun r => ?_)
    exact List.mapM_map
  rw [hrows] at h
  obtain ⟨hall, htexts⟩ := mapM_ok (k := fun r => (List.range g.columns).map (g.textAt settings r))
    (fun r ys hr => (mapM_ok (fun c _ => textAt_eq) hr).2.symm) h
  refine ⟨fun r hr c hc => ?_, htexts⟩
  have hrow := hall r (List.mem_range.2 hr)
  exact (mapM_ok (fun c _ => textAt_eq) hrow).1 c (List.mem_range.2 hc)

def widthAt (settings : Settings) (g : Grid) (c : ℕ) : ℕ :=
  (Finset.range g.rows).sup fun r => (g.textAt settings r c).length

/-- A cell as its line shows it. -/
def partAt (settings : Settings) (g : Grid) (r c : ℕ) : List Char :=
  aligned (g.widthAt settings c) (g.cellAt ⟨r, c⟩) (g.textAt settings r c)

def shownColumns (g : Grid) (r : ℕ) : List ℕ := List.range (g.lastFilled r (g.columns - 1) + 1)

def lineAt (settings : Settings) (g : Grid) (r : ℕ) : List Char :=
  bar.intercalate ((g.shownColumns r).map (g.partAt settings r))

section

variable {out : String}

theorem endsAt_shown (hcolumns : 0 < g.columns) {r : ℕ} (hr : r < g.rows) :
    g.EndsAt r (g.lastFilled r (g.columns - 1)) :=
  endsAt_lastFilled hr (Nat.sub_one_lt hcolumns.ne') fun c hc hlt => by omega

theorem renderRow_eq (hcolumns : 0 < g.columns) {r : ℕ} (hr : r < g.rows) :
    g.renderRow ((List.range g.columns).map (g.widthAt settings)) r
      ((List.range g.columns).map fun (c : ℕ) => g.cellAt ⟨r, c⟩)
      ((List.range g.columns).map (g.textAt settings r)) = g.lineAt settings r := by
  have hlast : (g.lastShown r + 1).toNat = g.lastFilled r (g.columns - 1) + 1 := by
    obtain ⟨n, hn⟩ := Nat.exists_eq_succ_of_ne_zero hcolumns.ne'
    rw [lastShown, hn]
    rfl
  have hinside := (endsAt_shown hcolumns hr).inside
  rw [renderRow, alignedRow_map, hlast, ← List.map_take, List.take_range,
    Nat.min_eq_left (Nat.succ_le_of_lt hinside)]
  rfl

/-- A table is shown by the lines of its rows, each ended by a line break. -/
theorem render_eq (hcolumns : 0 < g.columns) (h : g.render settings = .ok out) :
    (∀ r < g.rows, ∀ c < g.columns,
      (g.cellAt ⟨r, c⟩).text settings = .ok (g.textAt settings r c)) ∧
    out.toList = ((List.range g.rows).map (g.lineAt settings)).flatMap (· ++ ['\n']) := by
  unfold render at h
  obtain ⟨texts, htexts, h⟩ := ok_of_bind h
  obtain rfl := Except.ok.inj h
  obtain ⟨hall, rfl⟩ := texts_ok htexts
  refine ⟨hall, ?_⟩
  rw [String.toList_ofList, widthsOf_map, cells_eq, List.range_eq_range' (n := g.rows),
    renderRows_map]
  congr 1
  refine List.map_congr_left fun r hr => renderRow_eq hcolumns ?_
  simpa using hr

end

section

variable {r c : ℕ}

theorem isField_textAt (hfits : ∀ p, (g.content p).Fits) (r c : ℕ) :
    IsField (g.textAt settings r c).toList := by
  unfold textAt
  split
  · next htext => exact Cell.isField_text (hfits _) htext
  · exact isField_of_isFigure (isFigure_word rfl rfl)

theorem length_partAt (hr : r < g.rows) :
    (g.partAt settings r c).length = g.widthAt settings c :=
  length_aligned (Finset.le_sup (f := fun r => (g.textAt settings r c).length)
    (Finset.mem_range.2 hr))

theorem isLineBreak_intercalate {parts : List (List Char)} (h : ∀ p ∈ parts, Inline p) :
    ∀ c ∈ bar.intercalate parts, isLineBreak c = false := by
  induction parts with
  | nil => simp
  | cons p ps ih =>
    obtain ⟨hp, hps⟩ := List.forall_mem_cons.1 h
    have hfirst : ∀ c ∈ p, isLineBreak c = false := fun c hc => (hp c hc).2
    cases ps with
    | nil => rwa [List.intercalate_singleton]
    | cons q ps =>
      rw [intercalate_cons, List.forall_mem_append, List.forall_mem_cons, List.forall_mem_cons,
        List.forall_mem_cons]
      exact ⟨hfirst, by decide, by decide, by decide, ih hps⟩

section

variable (hfits : ∀ p, (g.content p).Fits)
include hfits

theorem inline_partAt (r c : ℕ) : Inline (g.partAt settings r c) :=
  inline_aligned (isField_textAt hfits r c)

theorem not_mem_partAt (r : ℕ) : ∀ p ∈ (g.shownColumns r).map (g.partAt settings r), '|' ∉ p := by
  intro p hp hbar
  obtain ⟨c, -, rfl⟩ := List.mem_map.1 hp
  exact (inline_partAt hfits r c _ hbar).1 rfl

theorem lines_render {out : String} (hcolumns : 0 < g.columns)
    (h : g.render settings = .ok out) :
    lines out.toList = (List.range g.rows).map (g.lineAt settings) := by
  rw [(render_eq hcolumns h).2]
  refine lines_flatMap fun l hl => ?_
  obtain ⟨r, -, rfl⟩ := List.mem_map.1 hl
  refine isLineBreak_intercalate fun p hp => ?_
  obtain ⟨c, -, rfl⟩ := List.mem_map.1 hp
  exact inline_partAt hfits r c

theorem fields_lineAt (r : ℕ) : (fields '|' (g.lineAt settings r)).map trim =
    (g.shownColumns r).map fun c => trim (g.partAt settings r c) := by
  rw [lineAt, fields_intercalate (by simp [shownColumns]) (not_mem_partAt hfits r), List.map_map]
  rfl

theorem length_fields_lineAt (r : ℕ) : (fields '|' (g.lineAt settings r)).length =
    g.lastFilled r (g.columns - 1) + 1 := by
  have hlength : ((fields '|' (g.lineAt settings r)).map trim).length = _ :=
    congrArg List.length (fields_lineAt hfits r)
  rwa [List.length_map, List.length_map, shownColumns, List.length_range] at hlength

theorem field_lineAt {part : List Char} (h : (fields '|' (g.lineAt settings r))[c]? = some part) :
    trim part = if (g.content ⟨r, c⟩).isSeparator then
      List.replicate (g.widthAt settings c) '_' else (g.textAt settings r c).toList := by
  have htrim : ((fields '|' (g.lineAt settings r)).map trim)[c]? = some (trim part) := by
    rw [List.getElem?_map, h]
    rfl
  rw [fields_lineAt hfits r, shownColumns, List.getElem?_map, Option.map_eq_some_iff] at htrim
  obtain ⟨column, hcolumn, hpart⟩ := htrim
  obtain ⟨_, hrange⟩ := List.getElem?_eq_some_iff.1 hcolumn
  obtain rfl : c = column := by simpa using hrange
  rw [← hpart, partAt, trim_aligned (isField_textAt hfits r c)]
  rfl

theorem bar_lineAt (hcolumns : 0 < g.columns) (hr : r < g.rows) {i : ℕ}
    (hi : (g.lineAt settings r)[i]? = some '|') :
    i = barPlace ((List.range g.columns).map (g.widthAt settings))
      (((g.lineAt settings r).take i).count '|') := by
  refine bar_place ?_ (not_mem_partAt hfits r) hi
  have hlengths : ((g.shownColumns r).map (g.partAt settings r)).map List.length =
      (g.shownColumns r).map (g.widthAt settings) := by
    rw [List.map_map]
    exact List.map_congr_left fun c _ => length_partAt hr
  have hshown : g.shownColumns r <+: List.range g.columns := by
    have hle := Nat.succ_le_of_lt (endsAt_shown hcolumns hr).inside
    rw [Nat.succ_eq_add_one] at hle
    rw [shownColumns, ← Nat.min_eq_left hle, ← List.take_range]
    exact List.take_prefix _ _
  rw [hlengths]
  exact hshown.map _

end

end

end Grid

namespace Evaluation
open Grid Text

variable {text out : String} {g : Grid} {log : Array Event} {limit : ℕ} {settings : Settings}
  {t : Progress}

theorem evaluate_fits (hread : Grid.ofText text = .ok (g, log))
    (hrun : evaluate ⟨limit, .builtin⟩ { grid := g, log } = (.ok (), t)) (p : Position) :
    (t.grid.content p).Fits := by
  obtain ⟨harena, hfits⟩ := fits_ofText hread
  have hlasting : Content.Lasting .builtin g.arena Content.Fits :=
    lasting_fits Functions.inline_builtin harena
  exact ((evaluate_throughout hlasting).of_run hrun hfits).holds p

/-- What an evaluated table shows has a line for each row and a field for each cell up to the last
that is not empty. But for blanks around it a field is the text of the cell, or a rule as long as
the longest text of its column; and the bars that have as many bars before them stand in line. -/
theorem render_splits (hread : Grid.ofText text = .ok (g, log)) (hcolumns : 0 < g.columns)
    (hrun : evaluate ⟨limit, .builtin⟩ { grid := g, log } = (.ok (), t))
    (hout : t.grid.render settings = .ok out) :
    ∃ shown : ℕ → ℕ → String,
      (∀ r < g.rows, ∀ c < g.columns,
        (t.grid.cellAt ⟨r, c⟩).text settings = .ok (shown r c)) ∧
      (lines out.toList).length = g.rows ∧
      ∀ (r : ℕ) l, (lines out.toList)[r]? = some l →
        (∃ last, t.grid.EndsAt r last ∧ (fields '|' l).length = last + 1) ∧
        (∀ (c : ℕ) part, (fields '|' l)[c]? = some part → trim part =
          if (t.grid.content ⟨r, c⟩).isSeparator then
            List.replicate ((Finset.range g.rows).sup fun i => (shown i c).length) '_'
          else (shown r c).toList) ∧
        ∀ (s : ℕ) other, (lines out.toList)[s]? = some other →
          ∀ i j : ℕ, l[i]? = some '|' → other[j]? = some '|' →
            (l.take i).count '|' = (other.take j).count '|' → i = j := by
  have hfits := evaluate_fits hread hrun
  have halike : g.Alike t.grid := (evaluate_done hrun).1.alike
  have hcolumns' : 0 < t.grid.columns := halike.columns.symm ▸ hcolumns
  have hlines := lines_render hfits hcolumns' hout
  have hline : ∀ {r : ℕ} {l}, (lines out.toList)[r]? = some l →
      r < t.grid.rows ∧ l = t.grid.lineAt settings r := by
    intro r l hr
    rw [hlines, List.getElem?_map, Option.map_eq_some_iff] at hr
    obtain ⟨r', hr', rfl⟩ := hr
    obtain ⟨hlt, rfl⟩ := List.getElem?_eq_some_iff.1 hr'
    rw [List.getElem_range]
    exact ⟨by simpa using hlt, rfl⟩
  rw [← halike.rows, ← halike.columns]
  refine ⟨t.grid.textAt settings, (render_eq hcolumns' hout).1, by simp [hlines], ?_⟩
  rintro r l hr
  obtain ⟨hlt, rfl⟩ := hline hr
  refine ⟨⟨_, endsAt_shown hcolumns' hlt, length_fields_lineAt hfits r⟩,
    fun _ _ => field_lineAt hfits, ?_⟩
  rintro s other hs i j hi hj hcount
  obtain ⟨hlt', rfl⟩ := hline hs
  rw [bar_lineAt hfits hcolumns' hlt hi, bar_lineAt hfits hcolumns' hlt' hj, hcount]

def ruledTable : Grid :=
  ⟨2, 3,
    #v[#v[⟨.number 12.0, .pending⟩, ⟨.separator, .pending⟩, ⟨.formula 2 .origin 0.0, .pending⟩],
      #v[⟨.formula 5 .origin 0.0, .pending⟩, ⟨.text "total", .pending⟩, ⟨.empty, .pending⟩]],
    ⟨#[.number 1.0, .number 0.0, .binary .divide 0 1,
      .relative ⟨0, 0⟩, .number 5.0, .binary .divide 3 4]⟩⟩

theorem render_splits_ruled :
    Grid.ofText "12|__|=1/0\n=A1/5|total" = .ok (ruledTable, #[]) ∧
      ∃ shown : ℕ → ℕ → String,
        ((evaluate ⟨1, .builtin⟩ { grid := ruledTable }).2.grid.cellAt ⟨1, 1⟩).text {} =
          .ok (shown 1 1) ∧
        (∃ last, (evaluate ⟨1, .builtin⟩ { grid := ruledTable }).2.grid.EndsAt 1 last ∧
          (fields '|' "2.4 | total".toList).length = last + 1) ∧
        trim " _____ ".toList =
          List.replicate ((Finset.range 2).sup fun i => (shown i 1).length) '_' ∧
        trim " total".toList = (shown 1 1).toList := by
  have hread : Grid.ofText "12|__|=1/0\n=A1/5|total" = .ok (ruledTable, #[]) :=
    ok_of_toOption (by decide +kernel)
  have hrun : (evaluate ⟨1, .builtin⟩ { grid := ruledTable }).1.toOption = some () := by
    decide +kernel
  have hout : (evaluate ⟨1, .builtin⟩ { grid := ruledTable }).2.grid.render {} =
      .ok " 12 | _____ | #Division by zero#\n2.4 | total\n" := ok_of_toOption (by decide +kernel)
  have hrule : (evaluate ⟨1, .builtin⟩ { grid := ruledTable }).2.grid.content ⟨0, 1⟩ =
      .separator := by decide +kernel
  have hword : (evaluate ⟨1, .builtin⟩ { grid := ruledTable }).2.grid.content ⟨1, 1⟩ =
      .text "total" := by decide +kernel
  obtain ⟨shown, htexts, -, hlines⟩ := render_splits hread (by decide) (Action.eq_ok hrun) hout
  obtain ⟨-, hfirst, -⟩ := hlines 0 " 12 | _____ | #Division by zero#".toList rfl
  obtain ⟨hends, hsecond, -⟩ := hlines 1 "2.4 | total".toList rfl
  have hruled := hfirst 1 " _____ ".toList rfl
  rw [Nat.cast_zero, Nat.cast_one, hrule] at hruled
  have htotal := hsecond 1 " total".toList rfl
  rw [Nat.cast_one, hword] at htotal
  exact ⟨hread, shown, htexts 1 (by decide) 1 (by decide), hends, hruled, htotal⟩

end Evaluation

end GridCalc

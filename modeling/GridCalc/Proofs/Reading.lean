import GridCalc.Proofs.Faithful
import GridCalc.Proofs.Placing
import GridCalc.Proofs.Scanning

/-!
# Tables as they are read

In a table that has just been read nothing has been worked out: every cell waits, apart from
faults, which are final. Such a table is faithful to itself.
-/

set_option autoImplicit false

namespace GridCalc

inductive Cell.Fresh : Cell → Prop
  | pending (c : Content) : Fresh ⟨c, .pending⟩
  | fault (f : Fault) : Fresh (.ofFault f)

def Grid.Fresh (g : Grid) : Prop := ∀ p, (g.cellAt p).Fresh

namespace Cell

variable {c : Cell} {a b : Arena}

theorem fresh_cloned (hc : c.Fresh) (d : Direction) (offset : Int) : (c.cloned d offset).Fresh := by
  obtain ⟨_, _, _, -, hsame⟩ | ⟨-, hsame⟩ := c.cloned_cases d offset
  · rw [hsame]
    exact .pending _
  · rwa [hsame]

theorem orFault_bind {α : Type} {x : Action Arena α} {f : α → Content}
    (h : orFault (x >>= fun y => pure ⟨f y, .pending⟩) a = (.ok c, b)) :
    (∃ y, x a = (.ok y, b) ∧ c = ⟨f y, .pending⟩) ∨
      ∃ e, x a = (.error (.fault e), b) ∧ c = .ofFault e := by
  unfold orFault at h
  rcases hx : x a with ⟨r, b'⟩
  cases r with
  | ok y =>
    rw [Action.bind_ok hx] at h
    cases h
    exact .inl ⟨y, rfl, rfl⟩
  | error e =>
    rw [Action.bind_error hx] at h
    cases e with
    | fault e =>
      cases h
      exact .inr ⟨e, rfl, rfl⟩
    | tooDeep => cases h
    | breakdown => cases h

theorem cloneOf_fault {text : String} {f : Fault} (h : cloneOf text = .error (.fault f)) :
    f.category = .parse ∧ ∀ quoted ∈ f.quotes, quoted ⊆ text.toList := by
  unfold cloneOf at h
  split at h
  · cases h
    exact ⟨rfl, by simp [Fault.quotes]⟩
  · next c cs htext =>
    split at h
    · cases h
      exact ⟨rfl, by simp [Fault.quotes]⟩
    · dsimp only at h
      split at h
      · cases h
      · split at h
        · cases h
          refine ⟨rfl, ?_⟩
          rw [htext]
          simpa [Fault.quotes] using List.subset_cons_of_subset c (Text.trim_subset cs)
        · split at h
          · cases h
          · cases h
            exact ⟨rfl, by simp [Fault.quotes]⟩
          · cases h

/-- How a cell is read from a text: as a formula or a clone, as the fault of one, or as a literal.
-/
inductive Read (p : Position) (s : String) (a : Arena) : Cell → Arena → Prop
  | formula {formula : String} {root : NodeId} {b : Arena} : s = "=" ++ formula →
      Formula.parse formula p a = (.ok root, b) →
      Read p s a ⟨.formula root .origin 0.0, .pending⟩ b
  | unparsed {formula : String} {f : Fault} {b : Arena} : s = "=" ++ formula →
      Formula.parse formula p a = (.error (.fault f), b) → Read p s a (.ofFault f) b
  | clone (d : Direction) (offset : Int) : Read p s a ⟨.clone d offset, .pending⟩ a
  | malformed {f : Fault} : f.category = .parse → (∀ quoted ∈ f.quotes, quoted ⊆ s.toList) →
      Read p s a (.ofFault f) a
  | literal {content : Content} : content.isDeferred = false → (∀ f, content ≠ .error f) →
      (∀ text, content = .text text → text = s) → Read p s a ⟨content, .pending⟩ a

theorem read_ofPlainText (p : Position) (s : String) (a : Arena) :
    Read p s a (ofPlainText s) a := by
  have htext : ∀ text, Content.text s = .text text → text = s := by
    rintro _ ⟨⟩
    rfl
  unfold ofPlainText
  split
  · exact .literal rfl nofun nofun
  · split
    · split
      · exact .literal rfl nofun nofun
      · exact .literal rfl nofun htext
    · exact .literal rfl nofun htext

theorem ofText_cases {p : Position} {s : String} (h : ofText p s a = (.ok c, b)) :
    Read p s a c b := by
  unfold ofText at h
  generalize hs : s.toList = cs at h
  split at h
  · cases h
    exact .literal rfl nofun nofun
  · next formula =>
    have hformula : s = "=" ++ String.ofList formula := by
      rw [← String.ofList_toList (s := s), hs, ← List.singleton_append, String.ofList_append]
    obtain ⟨root, hparse, rfl⟩ | ⟨e, hparse, rfl⟩ := orFault_bind h
    · exact .formula hformula hparse
    · exact .unparsed hformula hparse
  · next source =>
    obtain ⟨way, hway, rfl⟩ | ⟨e, hway, rfl⟩ := orFault_bind h
    · obtain ⟨-, rfl⟩ := Prod.ext_iff.1 hway
      exact .clone _ _
    · obtain ⟨he, rfl⟩ := Prod.ext_iff.1 hway
      obtain ⟨hf, hquotes⟩ := cloneOf_fault he
      rw [String.toList_ofList] at hquotes
      exact .malformed hf fun quoted hq =>
        hs ▸ List.subset_cons_of_subset ':' (hquotes quoted hq)
  · cases h
    exact read_ofPlainText p s _

theorem Read.fresh {p : Position} {s : String} (h : Read p s a c b) : c.Fresh := by
  cases h with
  | unparsed | malformed => exact .fault _
  | _ => exact .pending _

/-- What every cell of a table that is read from the text has at its position, given the arena:
empty cells have it, and so do the faults of copies with no row above them and of what lies
outside; copies have it in the row below that of a cell that has it; and it comes with every cell
that is read where its text stands, while the cells before keep it. The arena has a property of
its own all the time. -/
structure Inherited (text : String) (arena : Arena → Prop) (cell : Arena → Position → Cell → Prop) :
    Prop where
  start : arena .empty
  empty : ∀ a p, cell a p .empty
  above : ∀ a p, cell a p (.ofFault .nothingAbove)
  outside : ∀ a p, cell a p (.ofFault .outsideTable)
  copied : ∀ {a row column c}, cell a ⟨row, column⟩ c → cell a ⟨row + 1, column⟩ (c.cloned .up 1)
  read : ∀ {p s a c b}, arena a → StandsAt text p s a → ofText p s a = (.ok c, b) →
    arena b ∧ cell b p c ∧ ∀ q x, cell a q x → cell b q x

end Cell

namespace Draft

variable {text : String} {arena : Arena → Prop} {cell : Arena → Position → Cell → Prop}

def Holds {columns : Nat} (arena : Arena → Prop) (cell : Arena → Position → Cell → Prop)
    (d : Draft columns) : Prop :=
  arena d.arena ∧ ∀ (r c : Nat) x, cellIn d.rows r c = some x → cell d.arena ⟨r, c⟩ x

section

variable {ls before after : List Line} {d e : Draft (columnCountOf ls)}

theorem cellsFrom_holds {left texts : List (List Char)} {done cells : List Cell} {a b : Arena}
    (hP : Cell.Inherited text arena cell) (hls : Line.all text = .ok ls)
    (hsplit : ls = before ++ .row (left ++ texts) :: after)
    (hd : ({} : Draft (columnCountOf ls)).addLines before = .ok d)
    (hleft : cellsFrom d.rows.size 0 left d.arena = (.ok done, a)) (ha : arena a)
    (h : cellsFrom d.rows.size left.length texts a = (.ok cells, b)) :
    arena b ∧
      (∀ (i : Nat) c, cells[i]? = some c → cell b ⟨d.rows.size, (left.length + i : Nat)⟩ c) ∧
      ∀ q x, cell a q x → cell b q x := by
  induction texts generalizing left done cells a with
  | nil =>
    cases h
    exact ⟨ha, by simp, fun _ _ hx => hx⟩
  | cons t ts ih =>
    obtain ⟨first, a', rest, hfirst, hrest, rfl⟩ := cellsFrom_cons h
    have hrow : d.rows.size = rowCount before := (size_addLines hd).trans (Nat.zero_add _)
    have hstands : StandsAt text ⟨d.rows.size, left.length⟩ (String.ofList (Text.trim t)) a :=
      hrow ▸ .field hls hsplit hd hleft
    obtain ⟨ha', hcell, hkeep⟩ := hP.read ha hstands hfirst
    have hleft' : cellsFrom d.rows.size 0 (left ++ [t]) d.arena = (.ok (done ++ [first]), a') := by
      refine cellsFrom_append hleft ?_
      rw [Nat.zero_add, cellsFrom, Action.bind_ok hfirst]
      rfl
    obtain ⟨hb, hcells, hkeep'⟩ := ih (by simpa using hsplit) hleft' ha' (by simpa using hrest)
    refine ⟨hb, fun i c hi => ?_, fun q x hx => hkeep' q x (hkeep q x hx)⟩
    cases i with
    | zero =>
      obtain rfl : first = c := by simpa using hi
      exact hkeep' _ _ hcell
    | succ i =>
      have hlength : left.length + (i + 1) = (left ++ [t]).length + i := by
        rw [List.length_append, List.length_singleton, Nat.add_assoc, Nat.add_comm 1]
      rw [hlength]
      exact hcells i c (by simpa using hi)

theorem repeatLast_holds {columns : Nat} {rows : Array (Vector Cell columns)} {a : Arena} {n : Nat}
    (hP : Cell.Inherited text arena cell) (hne : 0 < rows.size)
    (h : ∀ (r c : Nat) x, cellIn rows r c = some x → cell a ⟨r, c⟩ x) (r c : Nat) {x : Cell}
    (hx : cellIn (repeatLast rows n) r c = some x) : cell a ⟨r, c⟩ x := by
  induction r generalizing x with
  | zero => exact h 0 c x (cellIn_repeatLast_of_lt hne ▸ hx)
  | succ r ih =>
    by_cases hr : r + 1 < rows.size
    · exact h (r + 1) c x (cellIn_repeatLast_of_lt hr ▸ hx)
    · have hlt := (lt_of_cellIn hx).1
      rw [size_repeatLast] at hlt
      rw [cellIn_repeatLast hne (Nat.le_of_not_lt hr) hlt] at hx
      obtain ⟨y, hy, rfl⟩ := Option.map_eq_some_iff.1 hx
      exact hP.copied (ih hy)

theorem Holds.addLine {l : Line} (hP : Cell.Inherited text arena cell)
    (hls : Line.all text = .ok ls) (hsplit : ls = before ++ l :: after)
    (hd : ({} : Draft (columnCountOf ls)).addLines before = .ok d) (hholds : d.Holds arena cell)
    (h : d.addLine l = .ok e) : e.Holds arena cell := by
  cases l with
  | row texts =>
    obtain ⟨cells, a, hcells, rfl⟩ := addLine_row h
    have hnone : cellsFrom d.rows.size 0 [] d.arena = (.ok [], d.arena) := rfl
    obtain ⟨ha, hnew, hkeep⟩ := cellsFrom_holds hP hls hsplit hd hnone hholds.1 hcells
    refine ⟨ha, fun r c x hx => ?_⟩
    by_cases hr : r < d.rows.size
    · exact hkeep _ _ (hholds.2 r c x (cellIn_push_of_lt hr ▸ hx))
    · obtain ⟨hlt, hc⟩ := lt_of_cellIn hx
      obtain rfl : r = d.rows.size := by
        rw [Array.size_push] at hlt
        omega
      rw [cellIn_push_size, getElem?_filled hc] at hx
      cases hget : cells[c]? with
      | none =>
        rw [hget] at hx
        cases hx
        exact hP.empty _ _
      | some y =>
        rw [hget] at hx
        cases hx
        simpa using hnew c _ hget
  | copies n =>
    obtain ⟨harena, ⟨-, he⟩ | ⟨hne, he⟩⟩ := addLine_copies h
    · refine ⟨harena ▸ hholds.1, fun r c x hx => ?_⟩
      obtain ⟨row, hrow, hcell⟩ := Option.bind_eq_some_iff.1 (he ▸ hx)
      rw [Array.eq_of_mem_replicate (Array.mem_of_getElem? hrow)] at hcell
      rw [Vector.eq_of_mem_replicate (Vector.mem_of_getElem? hcell)]
      exact hP.above _ _
    · refine ⟨harena ▸ hholds.1, fun r c x hx => ?_⟩
      rw [harena]
      exact repeatLast_holds hP hne hholds.2 r c (he ▸ hx)

theorem Holds.addLines (hP : Cell.Inherited text arena cell) (hls : Line.all text = .ok ls)
    (hsplit : ls = before ++ after) (hd : ({} : Draft (columnCountOf ls)).addLines before = .ok d)
    (hholds : d.Holds arena cell) (h : d.addLines after = .ok e) : e.Holds arena cell := by
  induction after generalizing before d with
  | nil =>
    cases h
    exact hholds
  | cons l after ih =>
    obtain ⟨e', hl, hrest⟩ := addLines_cons h
    have hbefore : ({} : Draft (columnCountOf ls)).addLines (before ++ [l]) = .ok e' := by
      rw [addLines_append hd, Draft.addLines, hl]
      rfl
    exact ih (by simpa using hsplit) hbefore (hholds.addLine hP hls hsplit hd hl) hrest

end

end Draft

namespace Grid

variable {g : Grid} {log : Array Event} {text : String}

theorem holds_ofText {arena : Arena → Prop} {cell : Arena → Position → Cell → Prop}
    (hP : Cell.Inherited text arena cell) (h : Grid.ofText text = .ok (g, log)) :
    arena g.arena ∧ ∀ p, cell g.arena p (g.cellAt p) := by
  obtain ⟨ls, d, hls, hd, rfl, -⟩ := ofText_ok h
  have hstart : ({} : Draft (columnCountOf ls)).Holds arena cell :=
    ⟨hP.start, by simp [Draft.cellIn]⟩
  have hnone : ({} : Draft (columnCountOf ls)).addLines [] = .ok {} := rfl
  have hholds := hstart.addLines hP hls rfl hnone hd
  refine ⟨hholds.1, fun p => ?_⟩
  by_cases hp : d.toGrid.contains p
  · have hcell := Draft.toGrid_cell? hp
    rw [cell?_of_contains hp] at hcell
    have hat := hholds.2 _ _ _ hcell.symm
    rwa [Int.toNat_of_nonneg hp.1.1, Int.toNat_of_nonneg hp.2.1] at hat
  · rw [cellAt_of_not_contains hp]
    exact hP.outside _ _

theorem fresh_ofText (h : Grid.ofText text = .ok (g, log)) : g.Fresh := by
  have hP : Cell.Inherited text (fun _ => True) (fun _ _ c => c.Fresh) :=
    ⟨trivial, fun _ _ => .pending _, fun _ _ => .fault _, fun _ _ => .fault _,
      fun hc => Cell.fresh_cloned hc .up 1,
      fun _ _ hc => ⟨trivial, (Cell.ofText_cases hc).fresh, fun _ _ hx => hx⟩⟩
  exact (holds_ofText hP h).2

theorem Fresh.faithful (hg : g.Fresh) (functions : Functions) : Faithful g functions g := by
  refine ⟨.refl g, ⟨fun _ => 0, 1, fun p hp => ⟨Nat.zero_lt_one, ?_⟩⟩, fun p _ => .refl _⟩
  refine .answered ?_
  unfold inquiry
  have hc := hg p
  rw [phase] at hp
  rw [content]
  cases hcell : g.cellAt p
  rw [hcell] at hc hp
  cases hc with
  | pending c => cases hp
  | fault f => exact .refl _

end Grid

end GridCalc

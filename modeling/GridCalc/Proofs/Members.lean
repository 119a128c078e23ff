import GridCalc.Proofs.Calls
import GridCalc.Proofs.Rectangle
import GridCalc.Proofs.Returning

/-!
# Members of a region

The cells of a region are asked for one after another, in the order of its positions, and each is
read once it is settled. If the table has the two corners, it has every cell that is read: what
would be seen outside of it makes no difference. Cells that are settled stay as they are, so the
numbers are those of the cells in the table that is left, one for each position. There are none
only if the asking for one of the cells stops, or if a cell that counts as zero has no name.
-/

set_option autoImplicit false

namespace GridCalc

def Cell.counted (c : Cell) : Float := c.number?.getD 0.0

theorem Action.mapM_error {σ α β : Type} {f : α → Action σ β} {as : List α} {s t : σ} {e : Stop} :
    as.mapM f s = (.error e, t) ↔ ∃ before a after bs u, as = before ++ a :: after ∧
      before.mapM f s = (.ok bs, u) ∧ f a u = (.error e, t) := by
  constructor
  · intro h
    induction as generalizing s with
    | nil => cases h
    | cons a as ih =>
      rw [List.mapM_cons] at h
      obtain ha | ⟨b, u, ha, h⟩ := error_of_bind h
      · exact ⟨[], a, as, [], s, rfl, rfl, ha⟩
      obtain has | ⟨bs, v, -, h⟩ := error_of_bind h
      · obtain ⟨before, a', after, bs, w, rfl, hbefore, hstop⟩ := ih has
        refine ⟨a :: before, a', after, b :: bs, w, rfl, ?_, hstop⟩
        rw [List.mapM_cons, bind_ok ha, bind_ok hbefore]
        rfl
      · cases h
  · rintro ⟨before, a, after, bs, u, rfl, hbefore, hstop⟩
    rw [List.mapM_append, bind_ok hbefore, List.mapM_cons]
    exact bind_error (bind_error hstop)

namespace Evaluation
open Grid

def countMember (r : Region) (p : Position) (c : Cell) : Evaluation Float :=
  match c.number? with
  | some x => pure x
  | none => do
    if !c.content.isEmpty then
      let name ← ofBreakdown p.name
      let region ← ofBreakdown r.name
      note (.countsAsZero name c.content.label region)
    pure 0.0

/-- Reads the cell at a position of the table. What is read elsewhere is given. -/
def cellOr (outside : Evaluation Cell) (p : Position) : Evaluation Cell := fun s =>
  match s.grid.cell? p with
  | some c => (.ok c, s)
  | none => outside s

section

variable (read : Position → Evaluation Cell) (ask : Position → Evaluation Unit) (r : Region)

def member (p : Position) : Evaluation Float := do
  ask p
  let c ← read p
  countMember r p c

def regionBy : Evaluation (List Float) := do
  if ← containsRegion r then r.positions.mapM (member read ask r)
  else do
    let region ← ofBreakdown r.name
    Action.fault (.regionOutside region)

end

section

variable {ask : Position → Evaluation Unit} {r : Region} {p : Position} {ps : List Position}
  {s t : Progress} {x : Float} {xs : List Float} {e : Stop}

theorem memberValues_eq (ask : Position → Evaluation Unit) (r : Region) (ps : List Position) :
    memberValues ask r ps = ps.mapM (member cellAt ask r) := by
  induction ps with
  | nil => rfl
  | cons p ps ih =>
    rw [List.mapM_cons, ← ih, memberValues, member]
    simp only [bind_assoc]
    refine bind_congr fun _ => bind_congr fun c => ?_
    unfold countMember
    cases c.number? with
    | some x => simp only [pure_bind]
    | none =>
      dsimp only
      split_ifs <;> simp only [bind_assoc, pure_bind]

theorem cellOr_of_contains (outside : Evaluation Cell) (hp : s.grid.contains p) :
    cellOr outside p s = cellAt p s := by
  rw [cellOr, cell?_of_contains hp, cellAt]

theorem regionBy_cellAt (ask : Position → Evaluation Unit) (r : Region) :
    regionBy cellAt ask r = regionValues ask r := by
  rw [regionBy, regionValues, memberValues_eq]

theorem regionBy_eq (read : Position → Evaluation Cell) (ask : Position → Evaluation Unit)
    (hstart : s.grid.contains r.start) (hfinish : s.grid.contains r.finish) :
    regionBy read ask r s = r.positions.mapM (member read ask r) s := by
  have hinside : containsRegion r s = (.ok true, s) := by
    rw [containsRegion, decide_eq_true ⟨hstart, hfinish⟩]
  rw [regionBy, Action.bind_ok hinside]
  rfl

theorem countMember_cases (r : Region) (p : Position) (c : Cell) (s : Progress) :
    (∃ t, countMember r p c s = (.ok c.counted, t) ∧ t.grid = s.grid) ∨
      ∃ b, countMember r p c s = (.error (.breakdown b), s) ∧
        (p.name = .error b ∨ r.name = .error b) := by
  unfold countMember Cell.counted
  cases c.number? with
  | some x => exact .inl ⟨s, rfl, rfl⟩
  | none =>
    dsimp only
    split
    · cases hp : p.name with
      | error b => exact .inr ⟨b, rfl, .inl rfl⟩
      | ok name =>
        cases hr : r.name with
        | error b => exact .inr ⟨b, rfl, .inr rfl⟩
        | ok region => exact .inl ⟨_, rfl, rfl⟩
    · exact .inl ⟨s, rfl, rfl⟩

theorem countMember_named (hp : p.IsNamed) (hr : r.IsNamed) (c : Cell) (s : Progress) :
    ∃ t, countMember r p c s = (.ok c.counted, t) ∧ t.grid = s.grid := by
  obtain hcount | ⟨b, -, hname⟩ := countMember_cases r p c s
  · exact hcount
  · obtain ⟨name, hp⟩ := hp.name
    obtain ⟨region, hr⟩ := hr.name
    rw [hp, hr] at hname
    obtain hname | hname := hname <;> cases hname

theorem member_eq {u : Progress} (hask : ask p s = (.ok (), u)) :
    member cellAt ask r p s = countMember r p (u.grid.cellAt p) u := by
  have hread : cellAt p u = (.ok (u.grid.cellAt p), u) := rfl
  rw [member, Action.bind_ok hask, Action.bind_ok hread]

theorem member_stops (hask : ask p s = (.error e, t)) :
    member cellAt ask r p s = (.error e, t) := Action.bind_error hask

theorem member_ok (h : member cellAt ask r p s = (.ok x, t)) :
    ∃ u, ask p s = (.ok (), u) ∧ t.grid = u.grid ∧ x = (t.grid.cellAt p).counted := by
  obtain ⟨_, u, hask, -⟩ := Action.ok_of_bind h
  rw [member_eq hask] at h
  obtain ⟨v, hcount, hgrid⟩ | ⟨b, hcount, -⟩ := countMember_cases r p (u.grid.cellAt p) u
  · rw [hcount] at h
    cases h
    exact ⟨u, hask, hgrid, by rw [hgrid]⟩
  · rw [hcount] at h
    cases h

theorem member_error (h : member cellAt ask r p s = (.error e, t)) :
    ask p s = (.error e, t) ∨ ∃ b, e = .breakdown b := by
  obtain hask | ⟨_, u, hask, -⟩ := Action.error_of_bind h
  · exact .inl hask
  rw [member_eq hask] at h
  obtain ⟨v, hcount, -⟩ | ⟨b, hcount, -⟩ := countMember_cases r p (u.grid.cellAt p) u
  · rw [hcount] at h
    cases h
  · rw [hcount] at h
    cases h
    exact .inr ⟨b, rfl⟩

theorem member_error_iff (hp : p.IsNamed) (hr : r.IsNamed) :
    member cellAt ask r p s = (.error e, t) ↔ ask p s = (.error e, t) := by
  refine ⟨fun h => ?_, member_stops⟩
  obtain hask | ⟨_, u, hask, -⟩ := Action.error_of_bind h
  · exact hask
  · obtain ⟨v, hcount, -⟩ := countMember_named hp hr (u.grid.cellAt p) u
    rw [member_eq hask, hcount] at h
    cases h

theorem members_ok (hask : Settles ask) (h : ps.mapM (member cellAt ask r) s = (.ok xs, t)) :
    s.grid.Advance t.grid ∧ (∀ p ∈ ps, t.grid.phase p = .done) ∧
      xs = ps.map fun p => (t.grid.cellAt p).counted := by
  -- Once a cell is done it stays so, and what it has counted for can be seen in the end.
  induction ps generalizing s xs with
  | nil =>
    cases h
    exact ⟨.refl _, by simp, rfl⟩
  | cons p ps ih =>
    rw [List.mapM_cons] at h
    obtain ⟨x, u, hp, h⟩ := Action.ok_of_bind h
    obtain ⟨ys, v, hps, h⟩ := Action.ok_of_bind h
    cases h
    obtain ⟨hafter, hdone, rfl⟩ := ih hps
    obtain ⟨w, hrun, hgrid, rfl⟩ := member_ok hp
    have hfirst : s.grid.Advance u.grid := hgrid ▸ (hask.settling hrun).orderly.advance
    have hsettled : u.grid.phase p = .done := hgrid ▸ (hask.settling hrun).done rfl
    -- the cells that are asked for later leave this one as it is
    have hkept := hafter.done p hsettled
    refine ⟨hfirst.trans hafter, ?_, by rw [List.map_cons, hkept]⟩
    rw [List.forall_mem_cons]
    exact ⟨by rw [phase, hkept]; exact hsettled, hdone⟩

theorem members_cellOr (hask : Settles ask) (outside : Evaluation Cell)
    (hin : ∀ p ∈ ps, s.grid.contains p) :
    ps.mapM (member (cellOr outside) ask r) s = ps.mapM (member cellAt ask r) s := by
  induction ps generalizing s with
  | nil => rfl
  | cons p ps ih =>
    have hmember : member (cellOr outside) ask r p s = member cellAt ask r p s := by
      refine Action.bind_congr rfl fun _ u hrun => Action.bind_congr ?_ fun _ _ _ => rfl
      have halike := (hask.settling hrun).orderly.advance.alike
      exact cellOr_of_contains outside (halike.contains.2 (hin p List.mem_cons_self))
    rw [List.mapM_cons, List.mapM_cons]
    refine Action.bind_congr hmember fun x u hfirst => Action.bind_congr (ih fun q hq => ?_)
      fun _ _ _ => rfl
    obtain ⟨v, hrun, hgrid, -⟩ := member_ok hfirst
    have halike := (hask.settling hrun).orderly.advance.alike
    rw [hgrid]
    exact halike.contains.2 (hin q (List.mem_cons_of_mem p hq))

theorem members_done {ctx : Context} {levels : Nat} (hr : r.IsNamed)
    (hps : ∀ p ∈ ps, p.IsNamed ∧ s.grid.phase p = .done) :
    ∃ t, ps.mapM (member cellAt (settleWithin ctx levels) r) s =
      (.ok (ps.map fun p => (s.grid.cellAt p).counted), t) ∧ t.grid = s.grid := by
  induction ps generalizing s with
  | nil => exact ⟨s, rfl, rfl⟩
  | cons p ps ih =>
    obtain ⟨⟨hname, hdone⟩, hrest⟩ := List.forall_mem_cons.1 hps
    obtain ⟨u, hcount, hgrid⟩ := countMember_named hname hr (s.grid.cellAt p) s
    have hasked : settleWithin ctx levels p s = (.ok (), s) := settleWithin_done hdone
    have hfirst := (member_eq hasked).trans hcount
    obtain ⟨t, hrun, hgrid'⟩ := ih (s := u) (hgrid ▸ hrest)
    refine ⟨t, ?_, hgrid'.trans hgrid⟩
    rw [List.mapM_cons, Action.bind_ok hfirst, Action.bind_ok hrun, hgrid]
    rfl

theorem regionValues_ok (hask : Settles ask) (hstart : s.grid.contains r.start)
    (hfinish : s.grid.contains r.finish) (h : regionValues ask r s = (.ok xs, t)) :
    xs = r.positions.map (fun p => (t.grid.cellAt p).counted) ∧
      ∀ p ∈ r.positions, ∃ c, t.grid.cell? p = some ⟨c, .done⟩ := by
  rw [← regionBy_cellAt, regionBy_eq _ _ hstart hfinish] at h
  obtain ⟨hafter, hdone, hxs⟩ := members_ok hask h
  exact ⟨hxs, fun p hp => ⟨_, cell?_of_done hafter.alike (contains_of_mem hstart hfinish hp)
    (hdone p hp)⟩⟩

theorem regionValues_error (hstart : s.grid.contains r.start) (hfinish : s.grid.contains r.finish)
    (h : regionValues ask r s = (.error e, t)) :
    (∃ p u, ask p u = (.error e, t)) ∨ ∃ b, e = .breakdown b := by
  rw [← regionBy_cellAt, regionBy_eq _ _ hstart hfinish] at h
  obtain ⟨before, p, after, xs, u, -, -, hstop⟩ := Action.mapM_error.1 h
  exact (member_error hstop).imp (fun hask => ⟨p, u, hask⟩) id

/-- If no name is missing, they fail only with the asking for one of the cells, when those before it
have been counted. -/
theorem regionValues_error_iff (hr : r.IsNamed) (hstart : s.grid.contains r.start)
    (hfinish : s.grid.contains r.finish) :
    regionValues ask r s = (.error e, t) ↔
      ∃ before p after xs u, r.positions = before ++ p :: after ∧
        memberValues ask r before s = (.ok xs, u) ∧ ask p u = (.error e, t) := by
  rw [← regionBy_cellAt, regionBy_eq _ _ hstart hfinish, Action.mapM_error]
  simp only [memberValues_eq]
  have hnamed : ∀ {before p after}, r.positions = before ++ p :: after → p.IsNamed :=
    fun hsplit => hr.member hstart hfinish (by simp [hsplit])
  constructor
  · rintro ⟨before, p, after, xs, u, hsplit, hbefore, hstop⟩
    exact ⟨before, p, after, xs, u, hsplit, hbefore, (member_error_iff (hnamed hsplit) hr).1 hstop⟩
  · rintro ⟨before, p, after, xs, u, hsplit, hbefore, hstop⟩
    exact ⟨before, p, after, xs, u, hsplit, hbefore, member_stops hstop⟩

end

/-- A region lists each position of its rectangle once, row by row, however its corners are given
and wherever it is shifted. In any state of a table that has the corners, at any depth, its cells
are asked for in this order, and none is read that is not in the table. If that returns, there is
one number for each position, from the cell there, which is done in the table that is left. It ends
with no fault; and if the corners have names it returns unless the asking for one of the cells
stops, so in particular if all of them are done. -/
theorem region_enumerates (r : Region) :
    (∀ p, p ∈ r.positions ↔ r.Covers p) ∧ r.positions.Pairwise Position.Before ∧
      r.positions.Nodup ∧
      r.positions.length = ((r.start.row - r.finish.row).natAbs + 1) *
        ((r.start.column - r.finish.column).natAbs + 1) ∧
      (Region.positions ⟨r.finish, r.start⟩ = r.positions ∧
        Region.positions ⟨⟨r.start.row, r.finish.column⟩, ⟨r.finish.row, r.start.column⟩⟩ =
          r.positions ∧
        Region.positions ⟨⟨r.finish.row, r.start.column⟩, ⟨r.start.row, r.finish.column⟩⟩ =
          r.positions) ∧
      (∀ d, (r.shift d).positions = r.positions.map (·.shift d)) ∧
      ∀ (ctx : Context) (levels : Nat) (s : Progress),
        s.grid.contains r.start → s.grid.contains r.finish →
        (∀ p ∈ r.positions, s.grid.contains p) ∧
        (∀ outside, regionBy (cellOr outside) (settleWithin ctx levels) r s =
          regionValues (settleWithin ctx levels) r s) ∧
        (∀ xs t, regionValues (settleWithin ctx levels) r s = (.ok xs, t) →
          xs.length = r.positions.length ∧
          xs = r.positions.map (fun p => (t.grid.cellAt p).counted) ∧
          ∀ p ∈ r.positions, ∃ c, t.grid.cell? p = some ⟨c, .done⟩) ∧
        (∀ f t, regionValues (settleWithin ctx levels) r s ≠ (.error (.fault f), t)) ∧
        (r.IsNamed →
          (∀ e t, regionValues (settleWithin ctx levels) r s = (.error e, t) ↔
            ∃ before p after xs u, r.positions = before ++ p :: after ∧
              memberValues (settleWithin ctx levels) r before s = (.ok xs, u) ∧
              settleWithin ctx levels p u = (.error e, t)) ∧
          ((∀ p ∈ r.positions, s.grid.phase p = .done) →
            ∃ t, regionValues (settleWithin ctx levels) r s =
              (.ok (r.positions.map fun p => (s.grid.cellAt p).counted), t) ∧
              t.grid = s.grid)) := by
  refine ⟨fun p => Region.mem_positions, r.pairwise_positions, r.pairwise_positions.nodup,
    r.length_positions, ⟨?_, ?_, ?_⟩, r.positions_shift, fun ctx levels s hstart hfinish => ?_⟩
  · exact Region.positions_corners (.inr ⟨rfl, rfl⟩) (.inr ⟨rfl, rfl⟩)
  · exact Region.positions_corners (.inl ⟨rfl, rfl⟩) (.inr ⟨rfl, rfl⟩)
  · exact Region.positions_corners (.inr ⟨rfl, rfl⟩) (.inl ⟨rfl, rfl⟩)
  have hin : ∀ p ∈ r.positions, s.grid.contains p := fun p hp => contains_of_mem hstart hfinish hp
  have hsettles := settleWithin_settles ctx levels
  refine ⟨hin, fun outside => ?_, fun xs t h => ?_, fun f t h => ?_, fun hr => ⟨fun e t => ?_,
    fun hdone => ?_⟩⟩
  · rw [← regionBy_cellAt, regionBy_eq _ _ hstart hfinish, regionBy_eq _ _ hstart hfinish]
    exact members_cellOr hsettles outside hin
  · obtain ⟨hxs, hcells⟩ := regionValues_ok hsettles hstart hfinish h
    exact ⟨by rw [hxs, List.length_map], hxs, hcells⟩
  · obtain ⟨p, u, hask⟩ | ⟨b, hb⟩ := regionValues_error hstart hfinish h
    · exact (hsettles.settling hask).noFault f rfl
    · cases hb
  · exact regionValues_error_iff hr hstart hfinish
  · rw [← regionBy_cellAt, regionBy_eq _ _ hstart hfinish]
    exact members_done hr fun p hp => ⟨hr.member hstart hfinish hp, hdone p hp⟩

def numberBesideText : Grid :=
  ⟨2, 2, #v[#v[⟨.number 1.0, .pending⟩, ⟨.text "x", .pending⟩],
    #v[⟨.formula 0 .origin 0.0, .pending⟩, .empty]], ⟨#[.relative ⟨0, 0⟩]⟩⟩

def wholeReversed : Region := ⟨⟨1, 1⟩, ⟨0, 0⟩⟩

def countedBesideText : Progress :=
  (numbersIn ⟨1, .builtin⟩ wholeReversed { grid := numberBesideText }).2

theorem region_enumerates_reversed :
    Grid.ofText "1|x\n=A1|" = .ok (numberBesideText, #[]) ∧
      wholeReversed.positions = [⟨0, 0⟩, ⟨0, 1⟩, ⟨1, 0⟩, ⟨1, 1⟩] ∧
      (∀ outside, regionBy (cellOr outside) (settle ⟨1, .builtin⟩) wholeReversed
        { grid := numberBesideText } = (.ok [1.0, 0.0, 1.0, 0.0], countedBesideText)) ∧
      (∀ p ∈ wholeReversed.positions, ∃ c, countedBesideText.grid.cell? p = some ⟨c, .done⟩) ∧
      ∃ t, numbersIn ⟨1, .builtin⟩ wholeReversed countedBesideText =
        (.ok [1.0, 0.0, 1.0, 0.0], t) ∧ t.grid = countedBesideText.grid := by
  have hread : Grid.ofText "1|x\n=A1|" = .ok (numberBesideText, #[]) :=
    ok_of_toOption (by decide +kernel)
  have hanswer : (numbersIn ⟨1, .builtin⟩ wholeReversed { grid := numberBesideText }).1.toOption =
      some [1.0, 0.0, 1.0, 0.0] := by decide +kernel
  have hnumbers : wholeReversed.positions.map (fun p => (countedBesideText.grid.cellAt p).counted) =
      [1.0, 0.0, 1.0, 0.0] := by decide +kernel
  have hdone : ∀ p ∈ wholeReversed.positions, countedBesideText.grid.phase p = .done := by
    decide +kernel
  have hrun := Action.eq_ok hanswer
  obtain ⟨-, -, -, -, -, -, htables⟩ := region_enumerates wholeReversed
  obtain ⟨-, hreads, hreturns, -⟩ :=
    htables ⟨1, .builtin⟩ 1 { grid := numberBesideText } (by decide) (by decide)
  obtain ⟨-, -, -, -, hnamed⟩ :=
    htables ⟨1, .builtin⟩ 1 countedBesideText (by decide +kernel) (by decide +kernel)
  obtain ⟨-, hagain⟩ := hnamed ⟨⟨by decide, by decide, by decide⟩, by decide, by decide, by decide⟩
  exact ⟨hread, by decide, fun outside => (hreads outside).trans hrun, (hreturns _ _ hrun).2.2,
    hnumbers ▸ hagain hdone⟩

/-- Though the table has all cells of a region, their numbers may not be had at once: a chain of
references that is longer than the limit ends the asking. -/
theorem numbersIn_tooDeep :
    ¬ ∀ (text : String) (g : Grid) (log : Array Event), Grid.ofText text = .ok (g, log) →
      ∀ (ctx : Context) (r : Region), 1 ≤ ctx.limit → g.contains r.start → g.contains r.finish →
        ∃ xs t, numbersIn ctx r { grid := g } = (.ok xs, t) ∧
          xs.length = r.positions.length := by
  intro h
  have hread : Grid.ofText "=B1|=C1|5" = .ok (twoReferences, #[]) :=
    ok_of_toOption (by decide +kernel)
  have hstop : (numbersIn ⟨1, .builtin⟩ ⟨⟨0, 0⟩, ⟨0, 2⟩⟩ { grid := twoReferences }).1 =
      .error (.tooDeep ⟨0, 1⟩ "B1") := by decide +kernel
  obtain ⟨xs, t, hrun, -⟩ :=
    h _ _ _ hread ⟨1, .builtin⟩ ⟨⟨0, 0⟩, ⟨0, 2⟩⟩ (by decide) (by decide) (by decide)
  rw [hrun] at hstop
  cases hstop

end Evaluation

end GridCalc

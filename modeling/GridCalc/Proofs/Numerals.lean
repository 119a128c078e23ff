import GridCalc.Cell.Reading
import Mathlib.Data.Bool.AllAny
import Mathlib.Data.List.TakeWhile

/-!
# Texts that are read as numbers

A digit with a place value is neither a blank nor a mark that a number is written with. So a run of
such digits is always read as a whole number, and whatever has the form of a decimal number is read
as one.
-/

set_option autoImplicit false

namespace GridCalc.Text
open GridCalc

theorem isDecimal_eq_false {c : Char} (h : ∀ z ∈ zeros, c.toNat < z ∨ z + 10 ≤ c.toNat) :
    isDecimal c = false := by
  have hfind : zeros.find? (fun z => z ≤ c.toNat && c.toNat < z + 10) = none := by
    rw [List.find?_eq_none]
    intro z hz
    have := h z hz
    simp only [Bool.and_eq_true, decide_eq_true_eq]
    omega
  rw [isDecimal, digitValue?, hfind]
  rfl

theorem isBlank_of_isDecimal {c : Char} (h : isDecimal c) : isBlank c = false := by
  have hfar : ∀ n ∈ blanks, ∀ z ∈ zeros, n < z ∨ z + 10 ≤ n := by decide +kernel
  cases hb : isBlank c with
  | false => rfl
  | true => simp [isDecimal_eq_false (hfar c.toNat (List.contains_iff_mem.1 hb))] at h

theorem isMargin_of_isDecimal {c : Char} (h : isDecimal c) : isMargin c = false := by
  simp [isMargin, isBlank_of_isDecimal h]

theorem ne_of_isDecimal {c m : Char} (h : isDecimal c) (hm : m ∈ ['_', '+', '-', '.', 'e', 'E']) :
    c ≠ m := by
  have hmarks : ∀ m ∈ ['_', '+', '-', '.', 'e', 'E'], isDecimal m = false :=
    List.all_iff_forall_prop.1 (by decide)
  rintro rfl
  simp [hmarks c hm] at h

theorem toNat_of_isPlainDigit {c : Char} (h : isPlainDigit c) :
    48 ≤ c.toNat ∧ c.toNat ≤ 57 := by
  simpa [isPlainDigit, Char.le_def, UInt32.le_iff_toNat_le] using h

theorem digitValue?_of_isPlainDigit {c : Char} (h : isPlainDigit c) :
    digitValue? c = some (c.toNat - 48) := by
  obtain ⟨hlow, hhigh⟩ := toNat_of_isPlainDigit h
  rw [digitValue?, zeros, List.find?_cons_of_pos (by simp; omega)]
  rfl

theorem isDecimal_of_isPlainDigit {c : Char} (h : isPlainDigit c) : isDecimal c := by
  simp [isDecimal, digitValue?_of_isPlainDigit h]

def Decimals (cs : List Char) : Prop := ∀ c ∈ cs, isDecimal c

section

variable {cs : List Char}

theorem Decimals.digitValues? (h : Decimals cs) (hne : cs ≠ []) :
    ∃ ds, digitValues? cs = some ds ∧ ds.length = cs.length := by
  induction cs with
  | nil => exact absurd rfl hne
  | cons c cs ih =>
    obtain ⟨d, hd⟩ := Option.isSome_iff_exists.1 (h c (by simp))
    cases cs with
    | nil => exact ⟨[d], by simp [Text.digitValues?, hd], rfl⟩
    | cons c' cs =>
      have hc' : c' ≠ '_' := ne_of_isDecimal (h c' (by simp)) (by simp)
      obtain ⟨ds, hds, hlength⟩ := ih (fun x hx => h x (List.mem_cons_of_mem _ hx)) (by simp)
      refine ⟨d :: ds, ?_, by rw [List.length_cons, hlength]; rfl⟩
      rw [Text.digitValues?]
      · rw [hd, hds]
      · simp
      · simpa using hc'

theorem Decimals.natural {ds : List Nat} (h : Decimals cs)
    (hds : Text.digitValues? cs = some ds) :
    Text.natural cs =
      if ds.length ≤ digitBound then .ok (ofDigits ds) else .error (.tooLong ds.length) := by
  have hfront : (cs.takeWhile fun c => isDecimal c || c == '_') = cs :=
    List.takeWhile_eq_self_iff.2 fun c hc => by simp [h c hc]
  rw [Text.natural, hfront, hds]
  simp only [Option.getD_some, ← Nat.not_le, ite_not]

theorem Decimals.natural_ok (h : Decimals cs) (hne : cs ≠ []) (hshort : cs.length ≤ digitBound) :
    ∃ n, Text.natural cs = .ok n := by
  obtain ⟨ds, hds, hlength⟩ := h.digitValues? hne
  exact ⟨ofDigits ds, by rw [h.natural hds, if_pos (hlength ▸ hshort)]⟩

theorem trimMargins_eq (h : ∀ c ∈ cs, isMargin c = false) : trimMargins cs = cs := by
  have hkeep : ∀ {ds : List Char}, (∀ c ∈ ds, isMargin c = false) →
      ds.dropWhile isMargin = ds := by
    intro ds h
    cases ds with
    | nil => rfl
    | cons d ds => exact List.dropWhile_cons_of_neg (by simp [h d (by simp)])
  rw [trimMargins, hkeep h, hkeep (by simpa using h), List.reverse_reverse]

theorem takeSign_eq {c : Char} (hc : isSign c = false) : takeSign (c :: cs) = (false, c :: cs) := by
  rw [takeSign]
  · rintro cs' ⟨⟩
    simp [isSign] at hc
  · rintro cs' ⟨⟩
    simp [isSign] at hc

theorem takeSign_snd (cs : List Char) :
    (takeSign cs).2 = cs ∨ ∃ c, isSign c ∧ cs = c :: (takeSign cs).2 := by
  unfold takeSign
  split
  · exact .inr ⟨_, by decide, rfl⟩
  · exact .inr ⟨_, by decide, rfl⟩
  · exact .inl rfl

theorem isMargin_of_isSign {c : Char} (h : isSign c) : isMargin c = false := by
  simp only [isSign, Bool.or_eq_true, beq_iff_eq] at h
  rcases h with rfl | rfl <;> decide

theorem takeSign_sign {c : Char} (hc : isSign c) : (takeSign (c :: cs)).2 = cs := by
  simp only [isSign, Bool.or_eq_true, beq_iff_eq] at hc
  rcases hc with rfl | rfl <;> rfl

theorem isSign_of_isDecimal {c : Char} (h : isDecimal c) : isSign c = false := by
  simp [isSign, ne_of_isDecimal h]

theorem Decimals.takeSign (h : Decimals cs) : takeSign cs = (false, cs) := by
  cases cs with
  | nil => rfl
  | cons c cs => exact takeSign_eq (isSign_of_isDecimal (h c (by simp)))

theorem Decimals.integer (h : Decimals cs) :
    integer cs = (Text.natural cs).map fun n : Nat => (n : Int) := by
  have htrim : trimMargins cs = cs := trimMargins_eq fun c hc => isMargin_of_isDecimal (h c hc)
  rw [Text.integer, htrim, h.takeSign]
  rfl

def plainValue (digits : List Char) : Nat :=
  digits.foldl (fun n c => 10 * n + (c.toNat - '0'.toNat)) 0

theorem decimals_plain (h : ∀ c ∈ cs, isPlainDigit c) : Decimals cs := fun c hc =>
  isDecimal_of_isPlainDigit (h c hc)

theorem digitValues?_plain (h : ∀ c ∈ cs, isPlainDigit c) (hne : cs ≠ []) :
    digitValues? cs = some (cs.map (·.toNat - '0'.toNat)) := by
  induction cs with
  | nil => exact absurd rfl hne
  | cons c cs ih =>
    have hc := digitValue?_of_isPlainDigit (h c (by simp))
    have hcs : ∀ x ∈ cs, isPlainDigit x := fun x hx => h x (by simp [hx])
    cases cs with
    | nil => simp [digitValues?, hc]
    | cons c' cs =>
      have hlow : c' ≠ '_' :=
        ne_of_isDecimal (isDecimal_of_isPlainDigit (hcs c' (by simp))) (by simp)
      rw [digitValues?, hc, ih hcs (by simp)]
      · rfl
      · simp
      · simpa using hlow

theorem ofDigits_plain (cs : List Char) :
    ofDigits (cs.map (·.toNat - '0'.toNat)) = plainValue cs := by
  rw [ofDigits, List.foldl_map, plainValue]

/-- Plain digits are read as the number that they write, unless they are too many. -/
theorem natural_plain (h : ∀ c ∈ cs, isPlainDigit c) (hne : cs ≠ []) :
    natural cs =
      if cs.length ≤ digitBound then .ok (plainValue cs) else .error (.tooLong cs.length) := by
  rw [(decimals_plain h).natural (digitValues?_plain h hne), List.length_map, ofDigits_plain]

theorem integer_plain (h : ∀ c ∈ cs, isPlainDigit c) (hne : cs ≠ [])
    (hshort : cs.length ≤ digitBound) : integer cs = .ok (plainValue cs : Int) := by
  rw [(decimals_plain h).integer, natural_plain h hne, if_pos hshort]
  rfl

end

inductive PowerText (digit : Char → Bool) : List Char → Prop
  | none : PowerText digit []
  | plain {mark : Char} {ds : List Char} : Decimal.isPowerMark mark → ds ≠ [] →
      (∀ d ∈ ds, digit d) → PowerText digit (mark :: ds)
  | signed {mark sign : Char} {ds : List Char} : Decimal.isPowerMark mark → isSign sign →
      ds ≠ [] → (∀ d ∈ ds, digit d) → PowerText digit (mark :: sign :: ds)

/-- A decimal number without a sign. -/
inductive NumberText (digit : Char → Bool) : List Char → Prop
  | whole {ds power : List Char} : ds ≠ [] → (∀ d ∈ ds, digit d) → PowerText digit power →
      NumberText digit (ds ++ power)
  | pointed {ds fs power : List Char} : (ds ≠ [] ∨ fs ≠ []) → (∀ d ∈ ds, digit d) →
      (∀ d ∈ fs, digit d) → PowerText digit power → NumberText digit (ds ++ '.' :: (fs ++ power))

theorem PowerText.mono {cs : List Char} {p q : Char → Bool} (h : PowerText p cs)
    (hpq : ∀ c ∈ cs, p c → q c) :
    PowerText q cs := by
  cases h with
  | none => exact .none
  | plain hmark hne hds =>
    exact .plain hmark hne fun d hd => hpq d (by simp [hd]) (hds d hd)
  | signed hmark hsign hne hds =>
    exact .signed hmark hsign hne fun d hd => hpq d (by simp [hd]) (hds d hd)

theorem NumberText.mono {cs : List Char} {p q : Char → Bool} (h : NumberText p cs)
    (hpq : ∀ c ∈ cs, p c → q c) :
    NumberText q cs := by
  cases h with
  | whole hne hds hpower =>
    exact .whole hne (fun d hd => hpq d (by simp [hd]) (hds d hd))
      (hpower.mono fun c hc => hpq c (by simp [hc]))
  | pointed hne hds hfs hpower =>
    exact .pointed hne (fun d hd => hpq d (by simp [hd]) (hds d hd))
      (fun d hd => hpq d (by simp [hd]) (hfs d hd)) (hpower.mono fun c hc => hpq c (by simp [hc]))

theorem PowerText.isMargin {cs : List Char} (h : PowerText isDecimal cs) :
    ∀ c ∈ cs, isMargin c = false := by
  have hmark : ∀ {m}, Decimal.isPowerMark m → Text.isMargin m = false := by
    intro m hm
    simp only [Decimal.isPowerMark, Bool.or_eq_true, beq_iff_eq] at hm
    rcases hm with rfl | rfl <;> decide
  cases h with
  | none => simp
  | plain hm _ hds =>
    simp only [List.forall_mem_cons]
    exact ⟨hmark hm, fun d hd => isMargin_of_isDecimal (hds d hd)⟩
  | signed hm hsign _ hds =>
    simp only [List.forall_mem_cons]
    exact ⟨hmark hm, isMargin_of_isSign hsign, fun d hd => isMargin_of_isDecimal (hds d hd)⟩

theorem NumberText.exists_digit {digit : Char → Bool} {cs : List Char}
    (h : NumberText digit cs) : ∃ c ∈ cs, digit c := by
  cases h with
  | whole hne hds _ =>
    obtain ⟨d, hd⟩ := List.exists_mem_of_ne_nil _ hne
    exact ⟨d, List.mem_append_left _ hd, hds d hd⟩
  | pointed hne hds hfs _ =>
    rcases hne with hne | hne
    · obtain ⟨d, hd⟩ := List.exists_mem_of_ne_nil _ hne
      exact ⟨d, List.mem_append_left _ hd, hds d hd⟩
    · obtain ⟨d, hd⟩ := List.exists_mem_of_ne_nil _ hne
      exact ⟨d, by simp [hd], hfs d hd⟩

theorem NumberText.isSign_head {digit : Char → Bool} (hdigit : ∀ c, digit c → isSign c = false)
    {cs : List Char} (h : NumberText digit cs) : ∀ c ∈ cs.head?, isSign c = false := by
  cases h with
  | @whole ds power hne hds _ =>
    intro c hc
    cases ds with
    | nil => exact absurd rfl hne
    | cons d ds =>
      obtain rfl : d = c := by simpa using hc
      exact hdigit d (hds d (by simp))
  | @pointed ds fs power _ hds _ _ =>
    intro c hc
    cases ds with
    | nil =>
      obtain rfl : '.' = c := by simpa using hc
      decide
    | cons d ds =>
      obtain rfl : d = c := by simpa using hc
      exact hdigit d (hds d (by simp))

theorem NumberText.takeSign {cs : List Char} (h : NumberText isDecimal cs) :
    (takeSign cs).2 = cs := by
  rcases takeSign_snd cs with heq | ⟨c, hc, heq⟩
  · exact heq
  · simp [h.isSign_head (fun c => isSign_of_isDecimal) c (by rw [heq]; rfl)] at hc

theorem NumberText.isMargin {cs : List Char} (h : NumberText isDecimal cs) :
    ∀ c ∈ cs, isMargin c = false := by
  cases h with
  | whole _ hds hpower =>
    simp only [List.forall_mem_append]
    exact ⟨fun d hd => isMargin_of_isDecimal (hds d hd), hpower.isMargin⟩
  | pointed _ hds hfs hpower =>
    simp only [List.forall_mem_append, List.forall_mem_cons]
    exact ⟨fun d hd => isMargin_of_isDecimal (hds d hd), by decide,
      fun d hd => isMargin_of_isDecimal (hfs d hd), hpower.isMargin⟩

end GridCalc.Text

namespace GridCalc.Decimal
open GridCalc.Text

theorem isPowerMark_of_isDecimal {c : Char} (h : isDecimal c) : isPowerMark c = false := by
  simp [isPowerMark, ne_of_isDecimal h]

theorem power?_isSome {power : List Char} (h : PowerText isDecimal power) :
    ∃ k, power? power = some k := by
  cases h with
  | none => exact ⟨0, rfl⟩
  | @plain mark ds hmark hne hds =>
    obtain ⟨vs, hvs, -⟩ := Decimals.digitValues? hds hne
    simp only [isPowerMark, Bool.or_eq_true, beq_iff_eq] at hmark
    exact ⟨ofDigits vs, by simp [power?, if_pos hmark, Decimals.takeSign hds, hvs]⟩
  | @signed mark sign ds hmark hsign hne hds =>
    obtain ⟨vs, hvs, -⟩ := Decimals.digitValues? hds hne
    simp only [isPowerMark, Bool.or_eq_true, beq_iff_eq] at hmark
    refine ⟨if (takeSign (sign :: ds)).1 then -(ofDigits vs : Int) else ofDigits vs, ?_⟩
    simp [power?, if_pos hmark, takeSign_sign hsign, hvs]

theorem takeWhile_front (rest : List Char) {ds : List Char} (hds : Decimals ds)
    (hrest : ∀ c ∈ rest.head?, c = '.' ∨ isPowerMark c) :
    (ds ++ rest).takeWhile (fun c => c != '.' && !isPowerMark c) = ds := by
  rw [List.takeWhile_append_of_pos]
  · cases rest with
    | nil => simp
    | cons c rest =>
      rw [List.takeWhile_cons_of_neg, List.append_nil]
      rcases hrest c (by simp) with rfl | hc <;> simp [*]
  · intro d hd
    simp [isPowerMark_of_isDecimal (hds d hd), ne_of_isDecimal (hds d hd)]

theorem side?_isSome {ds : List Char} (h : Decimals ds) :
    ∃ vs, side? ds = some vs ∧ (ds ≠ [] → vs ≠ []) := by
  by_cases hne : ds = []
  · exact ⟨[], by simp [side?, hne], fun h => absurd hne h⟩
  · obtain ⟨vs, hvs, hlength⟩ := h.digitValues? hne
    refine ⟨vs, by simp [side?, hne, hvs], fun _ hnil => hne ?_⟩
    rwa [hnil, eq_comm, List.length_nil, List.length_eq_zero_iff] at hlength

theorem isPowerMark_head? {power : List Char} {digit : Char → Bool} (h : PowerText digit power) :
    ∀ c ∈ power.head?, isPowerMark c := by
  cases h <;> simp [*]

theorem unsigned?_whole {ds power : List Char} {vs : List Nat} {k : Int} (negative : Bool)
    (hds : Decimals ds) (hpower : PowerText isDecimal power) (hvs : side? ds = some vs)
    (hne : vs ≠ []) (hk : power? power = some k) :
    unsigned? negative (ds ++ power) = some (ofScaled negative (ofDigits vs) k) := by
  have hfront := takeWhile_front power hds fun c hc => .inr (isPowerMark_head? hpower c hc)
  have hrest : ∀ rest, power ≠ '.' :: rest := by
    rintro rest rfl
    have := isPowerMark_head? hpower '.' (by simp)
    simp [isPowerMark] at this
  have hback : side? [] = some [] := rfl
  unfold unsigned?
  simp [hfront, hvs, hk, hback, hne]

theorem unsigned?_pointed {ds fs power : List Char} {vs ws : List Nat} {k : Int} (negative : Bool)
    (hds : Decimals ds) (hfs : Decimals fs) (hpower : PowerText isDecimal power)
    (hvs : side? ds = some vs) (hws : side? fs = some ws) (hne : vs ≠ [] ∨ ws ≠ [])
    (hk : power? power = some k) :
    unsigned? negative (ds ++ '.' :: (fs ++ power)) =
      some (ofScaled negative (ofDigits (vs ++ ws)) (k - ws.length)) := by
  have hfront := takeWhile_front ('.' :: (fs ++ power)) hds fun c hc =>
    .inl (by simpa [eq_comm] using hc)
  have hmark : ∀ d ∈ fs, !isPowerMark d := fun d hd => by simp [isPowerMark_of_isDecimal (hfs d hd)]
  have hback : (fs ++ power).takeWhile (fun c => !isPowerMark c) = fs ∧
      (fs ++ power).dropWhile (fun c => !isPowerMark c) = power := by
    rw [List.takeWhile_append_of_pos hmark, List.dropWhile_append_of_pos hmark]
    cases power with
    | nil => simp
    | cons c power => simp [isPowerMark_head? hpower c (by simp)]
  unfold unsigned?
  simp only [hfront, List.drop_left, hback.1, hback.2, hvs, hws, hk]
  exact if_neg fun h => hne.elim (absurd h.1) (absurd h.2)

theorem unsigned?_isSome {cs : List Char} (negative : Bool) (h : NumberText isDecimal cs) :
    (unsigned? negative cs).isSome := by
  cases h with
  | whole hne hds hpower =>
    obtain ⟨k, hk⟩ := power?_isSome hpower
    obtain ⟨vs, hvs, hvne⟩ := side?_isSome hds
    simp [unsigned?_whole negative hds hpower hvs (hvne hne) hk]
  | pointed hne hds hfs hpower =>
    obtain ⟨k, hk⟩ := power?_isSome hpower
    obtain ⟨vs, hvs, hvne⟩ := side?_isSome hds
    obtain ⟨ws, hws, hwne⟩ := side?_isSome hfs
    simp [unsigned?_pointed negative hds hfs hpower hvs hws (hne.imp hvne hwne) hk]

/-- Whatever has the form of a number, with a sign or without, is read as one. -/
theorem read?_isSome {cs : List Char} (h : NumberText isDecimal (takeSign cs).2) :
    (read? (String.ofList cs)).isSome := by
  have hmargin : ∀ c ∈ cs, isMargin c = false := by
    rcases takeSign_snd cs with heq | ⟨c, hc, heq⟩
    · rw [← heq]
      exact h.isMargin
    · rw [heq, List.forall_mem_cons]
      exact ⟨isMargin_of_isSign hc, h.isMargin⟩
  unfold read?
  rw [String.toList_ofList, trimMargins_eq hmargin]
  dsimp only
  split
  · simp
  · exact unsigned?_isSome _ h

end GridCalc.Decimal

namespace GridCalc.Cell
open GridCalc.Text

theorem powerText_of_isPowerText {cs : List Char} (h : isPowerText cs) :
    PowerText isDecimal cs := by
  cases cs with
  | nil => exact .none
  | cons c cs =>
    simp only [isPowerText, Bool.and_eq_true, Bool.not_eq_true', List.isEmpty_eq_false_iff,
      List.all_eq_true] at h
    obtain ⟨⟨hmark, hne⟩, hds⟩ := h
    rcases takeSign_snd cs with heq | ⟨sign, hsign, heq⟩
    · rw [heq] at hne hds
      exact .plain hmark hne hds
    · rw [heq]
      exact .signed hmark hsign hne hds

theorem numberText_of_isNumberText {cs : List Char} (h : isNumberText cs) :
    NumberText isDecimal (takeSign cs).2 := by
  unfold isNumberText at h
  generalize (takeSign cs).2 = ds at h
  have hwhole : ∀ d ∈ ds.takeWhile isDecimal, isDecimal d := List.all_eq_true.1 List.all_takeWhile
  rw [← List.takeWhile_append_dropWhile (p := isDecimal) (l := ds)]
  dsimp only at h
  split at h
  · next rest hrest =>
    simp only [Bool.and_eq_true, Bool.not_eq_true', Bool.and_eq_false_iff,
      List.isEmpty_eq_false_iff] at h
    have hfs : ∀ d ∈ rest.takeWhile isDecimal, isDecimal d := List.all_eq_true.1 List.all_takeWhile
    rw [hrest, ← List.takeWhile_append_dropWhile (p := isDecimal) (l := rest)]
    exact .pointed h.1 hwhole hfs (powerText_of_isPowerText h.2)
  · simp only [Bool.and_eq_true, Bool.not_eq_true', List.isEmpty_eq_false_iff] at h
    exact .whole h.1 hwhole (powerText_of_isPowerText h.2)

theorem ofPlainText_number {s : String} (h : isNumberText s.toList) :
    ∃ x, ofPlainText s = ⟨.number x, .pending⟩ := by
  have hread : (Decimal.read? s).isSome := by
    rw [← String.ofList_toList (s := s)]
    exact Decimal.read?_isSome (numberText_of_isNumberText h)
  obtain ⟨x, hx⟩ := Option.isSome_iff_exists.1 hread
  obtain ⟨d, hd, hdecimal⟩ := (numberText_of_isNumberText h).exists_digit
  have hmem : d ∈ s.toList := by
    rcases takeSign_snd s.toList with heq | ⟨c, -, heq⟩
    · rwa [← heq]
    · rw [heq]
      exact List.mem_cons_of_mem _ hd
  have hseparator : isSeparatorText s.toList = false := by
    have hlow : d ≠ '_' := ne_of_isDecimal hdecimal (by simp)
    rw [isSeparatorText, Bool.and_eq_false_iff]
    exact .inr (List.all_eq_false.2 ⟨d, hmem, by simpa using hlow⟩)
  refine ⟨x, ?_⟩
  simp [ofPlainText, hseparator, h, hx]

end GridCalc.Cell

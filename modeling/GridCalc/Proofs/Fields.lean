import GridCalc.Proofs.Copies
import GridCalc.Proofs.Cutting
import GridCalc.Proofs.Inline

/-!
# What a table shows fits in its fields

A number is shown with digits and signs only. A text that has been read stood in a field, and a
fault quotes nothing else. So what a cell shows can stand in a field of a line without being cut
in two or losing a blank: this holds of every table that has been read, and evaluation keeps it.
-/

set_option autoImplicit false

namespace GridCalc
open Text

/-- The characters that numbers are written with, among others: plain ones that are no blanks. -/
def isFigure (c : Char) : Bool := decide (32 < c.toNat) && decide (c.toNat < 124)

/-- A text that is a field of a line as it is. -/
structure IsField (cs : List Char) : Prop where
  inline : Inline cs
  trimmed : trim cs = cs

section

variable {cs : List Char} {c : Char}

theorem isFigure_iff : isFigure c ↔ 32 < c.toNat ∧ c.toNat < 124 := by
  rw [isFigure, Bool.and_eq_true, decide_eq_true_iff, decide_eq_true_iff]

theorem isFigure_of_isPlainDigit (h : isPlainDigit c) : isFigure c := by
  obtain ⟨hlow, hhigh⟩ := toNat_of_isPlainDigit h
  exact isFigure_iff.2 ⟨by omega, by omega⟩

theorem isFigure_word {s : String} (hs : s = String.ofList cs) (h : cs.all isFigure = true) :
    ∀ c ∈ s.toList, isFigure c := by
  rw [hs, String.toList_ofList]
  exact List.all_eq_true.1 h

theorem isBlank_of_isFigure (h : isFigure c) : isBlank c = false := by
  obtain ⟨hlow, hhigh⟩ := isFigure_iff.1 h
  rw [isBlank, blanks, ← Bool.not_eq_true, List.contains_iff_mem]
  simp only [List.mem_cons, List.not_mem_nil, or_false]
  omega

theorem trim_of_solid (h : ∀ c ∈ cs, isBlank c = false) : trim cs = cs := by
  by_cases hne : cs = []
  · rw [hne]
    rfl
  · have hbare : Bare cs := by
      refine ⟨⟨cs.head hne, List.head?_eq_some_head hne, h _ (List.head_mem hne)⟩,
        ⟨cs.getLast hne, List.getLast?_eq_some_getLast hne, h _ (List.getLast_mem hne)⟩⟩
    exact hbare.trim

theorem isField_of_isFigure (h : ∀ c ∈ cs, isFigure c) : IsField cs := by
  refine ⟨inline_of_isPlainText fun c hc => ?_,
    trim_of_solid fun c hc => isBlank_of_isFigure (h c hc)⟩
  obtain ⟨hlow, hhigh⟩ := isFigure_iff.1 (h c hc)
  exact isPlainText_iff.2 ⟨hlow.le, hhigh⟩

theorem bare_trim (h : trim cs ≠ []) : Bare (trim cs) := by
  have hlast : ∃ c, (trim cs).getLast? = some c ∧ isBlank c = false := by
    refine ⟨(trim cs).getLast h, List.getLast?_eq_some_getLast h, ?_⟩
    have hne : (trimStart cs).reverse.dropWhile isBlank ≠ [] := by
      simpa [trim, trimEnd] using h
    have hnot := List.head_dropWhile_not isBlank hne
    simpa [trim, trimEnd, List.getLast_reverse] using hnot
  have hfirst : ∃ c, (trim cs).head? = some c ∧ isBlank c = false := by
    have hstart : trimStart cs ≠ [] := by
      intro hnil
      exact h (by rw [trim, hnil]; rfl)
    have hprefix : trim cs <+: trimStart cs := by
      rw [trim, trimEnd, ← List.reverse_suffix, List.reverse_reverse]
      exact List.dropWhile_suffix isBlank
    obtain ⟨rest, hrest⟩ := hprefix
    refine ⟨(trim cs).head h, List.head?_eq_some_head h, ?_⟩
    have hnot := List.head_dropWhile_not isBlank hstart
    have hsame : (trim cs).head h = (trimStart cs).head hstart := by
      simp only [← hrest, List.head_append_of_ne_nil h]
    rw [hsame]
    exact hnot
  exact ⟨hfirst, hlast⟩

theorem trim_trim (cs : List Char) : trim (trim cs) = trim cs := by
  by_cases h : trim cs = []
  · rw [h]
    rfl
  · exact (bare_trim h).trim

end

namespace Decimal

section

variable {ds : List ℕ} {d : Digits}

theorem isFigure_digitText (h : Digital ds) : ∀ c ∈ digitText ds, isFigure c := fun c hc =>
  isFigure_of_isPlainDigit (isPlainDigit_of_mem h c hc)

theorem isFigure_zerosText (n : ℕ) : ∀ c ∈ zerosText n, isFigure c := by
  rw [zerosText_eq]
  exact isFigure_digitText (digital_replicate n)

theorem isFigure_powerText (k : ℤ) : ∀ c ∈ powerText k, isFigure c := by
  rw [powerText_eq, List.forall_mem_cons, List.forall_mem_cons]
  refine ⟨by decide, ?_, isFigure_digitText (powerDigits_spec k).1⟩
  split <;> decide

theorem isFigure_scientificText (h : Digital d.digits) :
    ∀ c ∈ scientificText d, isFigure c := by
  have hdigits := isFigure_digitText h
  unfold scientificText
  split
  · next first second rest htext =>
    rw [htext, List.forall_mem_cons, List.forall_mem_cons] at hdigits
    obtain ⟨hfirst, hsecond, hrest⟩ := hdigits
    rw [List.forall_mem_append, List.forall_mem_cons, List.forall_mem_cons, List.forall_mem_cons]
    exact ⟨⟨hfirst, by decide, hsecond, hrest⟩, isFigure_powerText _⟩
  · exact List.forall_mem_append.2 ⟨hdigits, isFigure_powerText _⟩

theorem isFigure_positionalText (pointed : Bool) (h : Digital d.digits) :
    ∀ c ∈ positionalText pointed d, isFigure c := by
  unfold positionalText
  split
  · rw [List.forall_mem_append, List.forall_mem_cons, List.forall_mem_cons]
    exact ⟨⟨by decide, by decide, isFigure_zerosText _⟩, isFigure_digitText h⟩
  · have htake : Digital (d.digits.take (d.exponent.toNat + 1)) := fun x hx =>
      h x (List.mem_of_mem_take hx)
    have hdrop : Digital (d.digits.drop (d.exponent.toNat + 1)) := fun x hx =>
      h x (List.mem_of_mem_drop hx)
    rw [List.forall_mem_append, List.forall_mem_append]
    refine ⟨⟨isFigure_digitText htake, isFigure_zerosText _⟩, ?_⟩
    split
    · exact List.forall_mem_cons.2 ⟨by decide, isFigure_digitText hdrop⟩
    · split
      · exact List.forall_mem_cons.2 ⟨by decide, List.forall_mem_singleton.2 (by decide)⟩
      · exact nofun

theorem isFigure_text (layout : Layout) (h : Digital d.digits) :
    ∀ c ∈ layout.text d, isFigure c := by
  unfold Layout.text
  split
  · exact isFigure_positionalText _ h
  · exact isFigure_scientificText h

theorem digital_ofScaled (n : ℕ) (place : ℤ) : Digital (Digits.ofScaled n place).digits := by
  obtain rfl | hn := Nat.eq_zero_or_pos n
  · exact digital_replicate 1
  · exact (ofScaled_sound hn place).1.digital

theorem digital_shortest (m : ℕ) (e : ℤ) : Digital (shortest m e).digits := by
  unfold shortest
  dsimp only
  generalize hfound : List.findSome? _ _ = found
  cases found with
  | none => exact digital_replicate 1
  | some d =>
    obtain ⟨k, -, hk⟩ := List.exists_of_findSome?_eq_some hfound
    obtain ⟨n, -, rfl⟩ := Option.map_eq_some_iff.1 hk
    exact digital_ofScaled n _

theorem digital_rounded (m : ℕ) (e : ℤ) (count : ℕ) : Digital (rounded m e count).digits :=
  digital_ofScaled _ _

end

variable {x : Float}

theorem isField_textWith {layout : Layout} {choose : ℕ → ℤ → Digits}
    (h : ∀ m e, Digital (choose m e).digits) : IsField (textWith layout choose x).toList := by
  unfold textWith
  split
  · exact isField_of_isFigure (isFigure_word rfl rfl)
  · split
    · exact isField_of_isFigure (isFigure_word rfl rfl)
    · exact isField_of_isFigure (isFigure_word rfl rfl)
  · next negative m e _ =>
    dsimp only
    rw [String.toList_ofList]
    refine isField_of_isFigure (List.forall_mem_append.2 ⟨?_, isFigure_text layout ?_⟩)
    · split
      · exact List.forall_mem_singleton.2 (by decide)
      · exact nofun
    · split
      · exact digital_replicate 1
      · exact h m e

theorem isField_wholeText (n : ℤ) : IsField (wholeText n).toList := by
  refine isField_of_isFigure fun c hc => ?_
  obtain rfl | hdigit := mem_repr (n := n) hc
  · decide
  · exact isFigure_of_isPlainDigit hdigit

theorem isField_plain : IsField (plain x).toList := by
  have hexact : IsField (exact x).toList := isField_textWith digital_shortest
  unfold plain
  split
  · split
    · exact isField_wholeText _
    · exact hexact
  · exact hexact

end Decimal

theorem Settings.isField_numberText {settings : Settings} {x : Float} {s : String}
    (h : settings.numberText x = .ok s) : IsField s.toList := by
  unfold numberText at h
  split at h
  · cases h
    exact Decimal.isField_plain
  · split_ifs at h
    cases h
    exact Decimal.isField_textWith fun m e => Decimal.digital_rounded m e _

namespace Text

variable {cs piece : List Char} {c sep : Char} {pieces : List (List Char)}

theorem mem_consFirst (h : piece ∈ consFirst c pieces) :
    piece ∈ pieces ∨ ∃ rest, piece = c :: rest ∧ (rest = [] ∨ rest ∈ pieces) := by
  cases pieces with
  | nil =>
    obtain rfl := List.mem_singleton.1 h
    exact .inr ⟨[], rfl, .inl rfl⟩
  | cons first pieces =>
    obtain rfl | hmem := List.mem_cons.1 h
    · exact .inr ⟨first, rfl, .inr List.mem_cons_self⟩
    · exact .inl (List.mem_cons_of_mem first hmem)

theorem mem_fields (h : piece ∈ fields sep cs) : sep ∉ piece ∧ piece ⊆ cs := by
  induction cs generalizing piece with
  | nil =>
    obtain rfl := List.mem_singleton.1 h
    exact ⟨List.not_mem_nil, List.Subset.refl _⟩
  | cons c cs ih =>
    unfold fields at h
    split at h
    · obtain rfl | hmem := List.mem_cons.1 h
      · exact ⟨List.not_mem_nil, List.nil_subset _⟩
      · exact ⟨(ih hmem).1, List.subset_cons_of_subset c (ih hmem).2⟩
    · next hc =>
      obtain hmem | ⟨rest, rfl, hrest⟩ := mem_consFirst h
      · exact ⟨(ih hmem).1, List.subset_cons_of_subset c (ih hmem).2⟩
      · have hfree : sep ∉ rest ∧ rest ⊆ cs := by
          obtain rfl | hmem := hrest
          · exact ⟨List.not_mem_nil, List.nil_subset _⟩
          · exact ih hmem
        exact ⟨List.not_mem_cons_of_ne_of_not_mem (Ne.symm hc) hfree.1,
          List.cons_subset_cons c hfree.2⟩

theorem isLineBreak_of_mem_lines (h : piece ∈ lines cs) : ∀ c ∈ piece, isLineBreak c = false := by
  fun_induction lines cs generalizing piece with
  | case1 => cases h
  | case2 cs ih | case3 c cs _ hc ih =>
    obtain rfl | hmem := List.mem_cons.1 h
    · exact nofun
    · exact ih hmem
  | case4 c cs _ hc ih =>
    obtain hmem | ⟨rest, rfl, hrest⟩ := mem_consFirst h
    · exact ih hmem
    · refine List.forall_mem_cons.2 ⟨by simpa using hc, ?_⟩
      obtain rfl | hmem := hrest
      · exact nofun
      · exact ih hmem

end Text

namespace Line

theorem mem_ofTexts {number : ℕ} {texts : List (List Char)} {ls : List Line}
    (h : ofTexts number texts = .ok ls) {l : Line} (hl : l ∈ ls) :
    ∃ n, ∃ text ∈ texts, ofText n text = .ok l := by
  induction texts generalizing number ls with
  | nil =>
    cases h
    cases hl
  | cons text texts ih =>
    obtain ⟨first, rest, hfirst, hrest, rfl⟩ := ofTexts_cons h
    obtain rfl | hmem := List.mem_cons.1 hl
    · exact ⟨number, text, List.mem_cons_self, hfirst⟩
    · obtain ⟨n, t, ht, hof⟩ := ih hrest hmem
      exact ⟨n, t, List.mem_cons_of_mem text ht, hof⟩

/-- The texts of a row are the fields of a line, without the blanks at its ends. -/
theorem row_of_ofText {number : ℕ} {text : List Char} {texts : List (List Char)}
    (h : ofText number text = .ok (.row texts)) : texts = fields '|' (trim text) := by
  unfold ofText at h
  dsimp only at h
  split at h
  · split at h
    · cases h
    · split at h <;> cases h
  · cases h
    rfl

end Line

theorem isField_of_standsAt {text : String} {p : Position} {s : String} {a : Arena}
    (h : StandsAt text p s a) : IsField s.toList := by
  cases h with
  | @field ls before after left right t d cells a hls hsplit _ _ =>
    have hrow : Line.row (left ++ t :: right) ∈ ls := by simp [hsplit]
    obtain ⟨n, line, hline, hof⟩ := Line.mem_ofTexts hls hrow
    have hfield : t ∈ fields '|' (trim line) := Line.row_of_ofText hof ▸ by simp
    obtain ⟨hbar, hsub⟩ := mem_fields hfield
    have hinline : Inline t := fun c hc =>
      ⟨ne_of_mem_of_not_mem hc hbar,
        isLineBreak_of_mem_lines hline c (trim_subset line (hsub hc))⟩
    rw [String.toList_ofList]
    exact ⟨hinline.subset (trim_subset t), trim_trim t⟩

/-- What the content is shown as fits in a field, if it is a text or a fault. -/
def Content.Fits : Content → Prop
  | text s => IsField s.toList
  | error f => f.Inline
  | _ => True

theorem Content.fits_cloned {c : Cell} (h : c.content.Fits) (d : Direction) (offset : Int) :
    (c.cloned d offset).content.Fits := by
  obtain ⟨_, _, _, -, hsame⟩ | ⟨-, hsame⟩ := c.cloned_cases d offset
  · rw [hsame]
    trivial
  · rwa [hsame]

theorem Cell.Read.fits {p : Position} {s : String} {a b : Arena} {c : Cell} (h : Read p s a c b)
    (hs : IsField s.toList) (ha : a.Inline) : b.Inline ∧ c.content.Fits := by
  have hformula : ∀ {formula : String}, s = "=" ++ formula → Inline formula.toList := by
    rintro formula rfl
    rw [String.toList_append] at hs
    exact (inline_append.1 hs.inline).2
  have harena : ∀ {formula : String} {b : Arena}, s = "=" ++ formula →
      (Formula.parse formula p a).2 = b → b.Inline := by
    intro formula b hsplit hb id name arguments hn
    obtain hold | hname := Formula.parse_calls hb hn
    · exact ha id name arguments hold
    · exact (hformula hsplit).subset hname
  cases h with
  | formula hsplit hparse => exact ⟨harena hsplit (congrArg Prod.snd hparse), trivial⟩
  | unparsed hsplit hparse =>
    refine ⟨harena hsplit (congrArg Prod.snd hparse), fun quoted hq => ?_⟩
    exact (hformula hsplit).subset
      (Formula.parse_quotes (congrArg Prod.fst hparse) quoted hq)
  | clone => exact ⟨ha, trivial⟩
  | malformed _ hquotes => exact ⟨ha, fun quoted hq => hs.inline.subset (hquotes quoted hq)⟩
  | @literal content _ hne htext =>
    refine ⟨ha, ?_⟩
    cases content with
    | text s' =>
      obtain rfl := htext s' rfl
      exact hs
    | error f => exact absurd rfl (hne f)
    | _ => trivial

namespace Grid

variable {g : Grid} {text : String} {log : Array Event} {functions : Functions}

theorem fits_ofText (h : Grid.ofText text = .ok (g, log)) :
    g.arena.Inline ∧ g.Throughout g.arena Content.Fits := by
  have hP : Cell.Inherited text Arena.Inline (fun _ _ c => c.content.Fits) := by
    refine ⟨nofun, fun _ _ => trivial, fun _ _ => Fault.inline_of_quotes rfl,
      fun _ _ => Fault.inline_of_quotes rfl, fun hc => Content.fits_cloned hc .up 1,
      fun ha hstands hc => ?_⟩
    obtain ⟨hb, hfits⟩ := (Cell.ofText_cases hc).fits (isField_of_standsAt hstands) ha
    exact ⟨hb, hfits, fun _ _ hx => hx⟩
  obtain ⟨harena, hcells⟩ := holds_ofText hP h
  exact ⟨harena, rfl, rooted_ofText h, hcells⟩

theorem lasting_fits {a : Arena} (hfunctions : functions.Inline) (ha : a.Inline) :
    Content.Lasting functions a Content.Fits :=
  ⟨fun _ _ _ => trivial, Fault.inline_of_quotes rfl, fun _ hf => hf.inline hfunctions ha⟩

end Grid

theorem Cell.isField_faultText {f : Fault} (h : f.Inline) : IsField (faultText f).toList := by
  have hsign : Inline "#".toList := inline_plain rfl rfl
  have hbare : Bare ("#".toList ++ (f.message.toList ++ "#".toList)) :=
    (bare_singleton rfl).join (bare_singleton rfl) _
  rw [faultText, String.toList_append, String.toList_append, List.append_assoc]
  exact ⟨inline_append.2 ⟨hsign, inline_append.2 ⟨h.message, hsign⟩⟩, hbare.trim⟩

theorem Cell.isField_text {settings : Settings} {c : Cell} {s : String} (hc : c.content.Fits)
    (h : c.text settings = .ok s) : IsField s.toList := by
  have hunsettled : IsField unsettledText.toList := isField_of_isFigure (isFigure_word rfl rfl)
  unfold Cell.text at h
  cases hcontent : c.content with
  | text s' =>
    rw [hcontent] at h hc
    cases h
    exact hc
  | number x =>
    rw [hcontent] at h
    exact settings.isField_numberText h
  | formula root shift x =>
    rw [hcontent] at h
    dsimp only at h
    split at h
    · exact settings.isField_numberText h
    · cases h
      exact hunsettled
  | clone =>
    rw [hcontent] at h
    cases h
    exact hunsettled
  | error f =>
    rw [hcontent] at h hc
    cases h
    exact isField_faultText hc
  | separator | empty =>
    rw [hcontent] at h
    cases h
    exact isField_of_isFigure (isFigure_word rfl rfl)

end GridCalc

import GridCalc.Proofs.Writing
import GridCalc.Proofs.Scanning

/-!
# Cutting a written formula

Each word of a written formula ends before what follows it, so the row of its pieces is cut into
the same words again, whatever stands in them. The tokens that are cut show the pieces, and a row
that they show can be taken apart where the pieces can.
-/

set_option autoImplicit false

namespace GridCalc
open Formula

/-- What may follow a number or a cell name so that it ends there. -/
structure Ends (rest : List Char) : Prop where
  head : ∀ c ∈ rest.head?, isWordPart c = false ∧ c ≠ '.'
  call : startsWith (· == '(') (Text.trimStart rest) = false

section

variable {place : Nat} {rest cs : List Char} {c : Char} {kind : TokenKind}

theorem scanFrom_blank : scanFrom place (' ' :: rest) = scanFrom (place + 1) rest := by
  rw [scanFrom, if_pos Text.isBlank_space]

theorem scanFrom_lexeme (hblank : Text.isBlank c = false)
    (h : lexeme place c (cs ++ rest) = .ok (kind, cs.length)) :
    scanFrom place (c :: cs ++ rest) =
      (scanFrom (place + (c :: cs).length) rest).map
        (⟨kind, String.ofList (c :: cs), place⟩ :: ·) := by
  rw [List.cons_append, scanFrom, if_neg (by simp [hblank]), h]
  dsimp only
  rw [List.drop_left, List.take_left, List.length_cons, Nat.add_right_comm, Nat.add_assoc]

theorem lexeme_symbol (h : symbolKind? c = some kind) :
    Text.isBlank c = false ∧ lexeme place c rest = .ok (kind, 0) := by
  have hplain : Text.isBlank c = false ∧ (Text.isDigit c || c == '.') = false ∧
      pointsAway c = false ∧ (Text.isLetter c || c == '_') = false := by
    have hall : ∀ c ∈ ['+', '-', '*', '/', '$', '(', ')', ',', ':'], Text.isBlank c = false ∧
        (Text.isDigit c || c == '.') = false ∧ pointsAway c = false ∧
        (Text.isLetter c || c == '_') = false := List.all_iff_forall_prop.1 (by decide +kernel)
    apply hall
    unfold symbolKind? at h
    split at h <;> simp_all
  obtain ⟨hblank, hnumber, haway, hword⟩ := hplain
  refine ⟨hblank, ?_⟩
  rw [lexeme, if_neg (by simp [hnumber]), if_neg (by simp [haway]), if_neg (by simp [hword]), h]

theorem scanFrom_symbol (h : symbolKind? c = some kind) :
    scanFrom place (c :: rest) =
      (scanFrom (place + 1) rest).map (⟨kind, String.ofList [c], place⟩ :: ·) := by
  obtain ⟨hblank, hlexeme⟩ := @lexeme_symbol place rest c kind h
  exact @scanFrom_lexeme place rest [] c kind hblank hlexeme

theorem takeWhile_word {p : Char → Bool} (hcs : ∀ x ∈ cs, p x)
    (hrest : ∀ x ∈ rest.head?, p x = false) : (cs ++ rest).takeWhile p = cs := by
  rw [List.takeWhile_append_of_pos hcs]
  cases rest with
  | nil => simp
  | cons x rest => rw [List.takeWhile_cons_of_neg (by simp [hrest x rfl]), List.append_nil]

theorem lexeme_word (hnumber : (Text.isDigit c || c == '.') = false) (haway : pointsAway c = false)
    (hletter : (Text.isLetter c || c == '_') = true) (hcs : ∀ x ∈ cs, isWordPart x)
    (hrest : ∀ x ∈ rest.head?, isWordPart x = false)
    (hkind : wordKind place (c :: cs) rest = .ok kind) :
    lexeme place c (cs ++ rest) = .ok (kind, cs.length) := by
  rw [lexeme, if_neg (by simp [hnumber]), if_neg (by simp [haway]), if_pos hletter]
  dsimp only
  rw [takeWhile_word hcs hrest, List.drop_left, hkind]
  rfl

theorem scanFrom_name (h : IsWord cs) :
    scanFrom place (cs ++ '(' :: rest) =
      (scanFrom (place + cs.length) ('(' :: rest)).map (⟨.name, String.ofList cs, place⟩ :: ·) := by
  cases h with
  | @mk c cs hblank hnumber haway hletter hcs hv =>
    have hopen : ∀ x ∈ ('(' :: rest).head?, isWordPart x = false := by
      rintro x ⟨⟩
      decide +kernel
    have hkind : wordKind place (c :: cs) ('(' :: rest) = .ok .name := by
      have hstart : Text.trimStart ('(' :: rest) = '(' :: rest :=
        List.dropWhile_cons_of_neg (by decide)
      rw [wordKind, if_neg (by simpa using hv), hstart, if_pos (by simp [startsWith])]
    exact scanFrom_lexeme hblank (lexeme_word hnumber haway hletter hcs hopen hkind)

theorem isWordPart_of_isPlainDigit (h : Text.isPlainDigit c) : isWordPart c := by
  have hdigit := Text.isDigit_of_isDecimal (Text.isDecimal_of_isPlainDigit h)
  simp [isWordPart, Text.isWordChar_of_isDigit hdigit]

theorem scanFrom_letters {letters digits : List Char} (hl : letters ≠ [])
    (hletters : ∀ c ∈ letters, Text.isColumnLetter c) (hd : digits ≠ [])
    (hdigits : ∀ c ∈ digits, Text.isPlainDigit c) (hrest : Ends rest) :
    scanFrom place (letters ++ digits ++ rest) =
      (scanFrom (place + (letters ++ digits).length) rest).map
        (⟨.cell, String.ofList (letters ++ digits), place⟩ :: ·) := by
  have hletter : ∀ c ∈ letters, Text.isBlank c = false ∧
      (Text.isDigit c || c == '.') = false ∧ pointsAway c = false ∧ Text.isLetter c ∧ c ≠ 'v' := by
    have hall : ∀ d < 26, Text.isBlank (columnLetter d) = false ∧
        (Text.isDigit (columnLetter d) || columnLetter d == '.') = false ∧
        pointsAway (columnLetter d) = false ∧ Text.isLetter (columnLetter d) ∧
        columnLetter d ≠ 'v' := by decide +kernel
    intro c hc
    obtain ⟨d, hd, rfl⟩ := exists_columnLetter (hletters c hc)
    exact hall d hd
  have hparts : ∀ x ∈ letters ++ digits, isWordPart x := by
    rw [List.forall_mem_append]
    refine ⟨fun x hx => ?_, fun x hx => isWordPart_of_isPlainDigit (hdigits x hx)⟩
    obtain ⟨-, -, -, hx, -⟩ := hletter x hx
    simp [isWordPart, Text.isWordChar_of_isLetter hx]
  have hcell := isCellName_letters hl hletters hd hdigits
  obtain ⟨c, ls, rfl⟩ := List.exists_cons_of_ne_nil hl
  obtain ⟨hblank, hnumber, haway, hc, hv⟩ := hletter c (by simp)
  rw [List.cons_append] at hparts hcell ⊢
  have hkind : wordKind place (c :: (ls ++ digits)) rest = .ok .cell := by
    rw [wordKind, if_neg (by simp [startsWith, hv]), if_neg (by simp [hrest.call]), if_pos hcell]
  exact scanFrom_lexeme hblank (lexeme_word hnumber haway (by simp [hc])
    (fun x hx => hparts x (by simp [hx])) (fun x hx => (hrest.head x hx).1) hkind)

theorem scanFrom_cell {p : Position} (hp : p.IsWritable) (hrest : Ends rest) :
    scanFrom place (p.letters ++ p.digits ++ rest) =
      (scanFrom (place + (p.letters ++ p.digits).length) rest).map
        (⟨.cell, String.ofList (p.letters ++ p.digits), place⟩ :: ·) :=
  scanFrom_letters hp.letters_ne_nil (fun _ => Position.isColumnLetter_of_mem) p.digits_ne_nil
    (fun _ => Position.isPlainDigit_of_mem) hrest

section

variable {point power digits : Bool} {n : Nat} {ds : List Char}

theorem numberLength_digits (hds : ∀ d ∈ ds, Text.isDigit d) (hne : ds ≠ []) :
    numberLength point power digits (ds ++ cs) =
      (numberLength point power true cs).map (· + ds.length) := by
  induction ds generalizing digits with
  | nil => exact absurd rfl hne
  | cons d ds ih =>
    rw [List.cons_append, numberLength.eq_def]
    dsimp only
    rw [if_pos (hds d (by simp))]
    by_cases hempty : ds = []
    · subst hempty
      rfl
    · rw [ih (fun x hx => hds x (by simp [hx])) hempty]
      cases numberLength point power true cs with
      | error e => rfl
      | ok n => simp [Except.map, Nat.add_assoc]

theorem numberLength_end (hrest : ∀ c ∈ rest.head?, isWordPart c = false ∧ c ≠ '.') :
    numberLength point power digits rest = .ok 0 := by
  cases rest with
  | nil => rfl
  | cons c rest =>
    obtain ⟨hpart, hpoint⟩ := hrest c rfl
    have hdigit : Text.isDigit c = false := by
      cases hd : Text.isDigit c with
      | false => rfl
      | true => simp [isWordPart, Text.isWordChar_of_isDigit hd] at hpart
    have hmark : ¬ (c = 'e' ∨ c = 'E') := by
      have hletters : isWordPart 'e' ∧ isWordPart 'E' := by decide +kernel
      rintro (rfl | rfl)
      · rw [hletters.1] at hpart
        cases hpart
      · rw [hletters.2] at hpart
        cases hpart
    rw [numberLength.eq_def]
    dsimp only
    rw [if_neg (by simp [hdigit]), if_neg hpoint, if_neg fun h => hmark h.1]

theorem isDigit_of_digital {ns : List Nat} (h : Decimal.Digital ns) :
    ∀ d ∈ Decimal.digitText ns, Text.isDigit d := fun d hd =>
  Text.isDigit_of_isDecimal (Decimal.decimals_digitText h d hd)

theorem numberLength_of_power {k : Int} (h : Decimal.Power cs k) (hrest : Ends rest) :
    numberLength point false true (cs ++ rest) = .ok cs.length := by
  cases h with
  | none => exact numberLength_end hrest.head
  | written =>
    obtain ⟨hdigital, hne, -⟩ := Decimal.powerDigits_spec k
    have hdigits := isDigit_of_digital hdigital
    have hlength :
        numberLength point true true (Decimal.digitText (Decimal.powerDigits k) ++ rest) =
        .ok (Decimal.digitText (Decimal.powerDigits k)).length := by
      rw [numberLength_digits hdigits (Decimal.digitText_ne_nil hne), numberLength_end hrest.head]
      simp [Except.map]
    have hsign : isSign (if k < 0 then '-' else '+') := by split <;> rfl
    have hstart : startsWith Text.isDigit (Decimal.digitText (Decimal.powerDigits k) ++ rest) := by
      obtain ⟨d, ds, hds⟩ := List.exists_cons_of_ne_nil (Decimal.digitText_ne_nil hne)
      rw [hds] at hdigits ⊢
      exact hdigits d (by simp)
    rw [Decimal.powerText_eq, List.cons_append, List.cons_append, numberLength.eq_def]
    have hmark : Text.isDigit 'e' = false := by decide +kernel
    dsimp only
    rw [if_neg (by simp [hmark]), if_neg (by decide), if_pos (by simp), if_pos hsign, if_pos hstart,
      hlength]
    simp [Except.map]

theorem numberLength_of_numeral {m : Nat} {k : Int} (h : Decimal.Numeral cs m k)
    (hrest : Ends rest) :
    numberLength false false false (cs ++ rest) = .ok cs.length := by
  cases h with
  | whole hds hne hpower =>
    rw [List.append_assoc, numberLength_digits (isDigit_of_digital hds)
      (Decimal.digitText_ne_nil hne), numberLength_of_power hpower hrest]
    simp [Except.map, Nat.add_comm]
  | pointed hds hne hfs hfne hpower =>
    have hpoint : Text.isDigit '.' = false := by decide +kernel
    rw [List.append_assoc, numberLength_digits (isDigit_of_digital hds)
      (Decimal.digitText_ne_nil hne), List.cons_append, numberLength.eq_def]
    dsimp only
    rw [if_neg (by simp [hpoint]), if_pos rfl, if_neg (by simp), if_neg (by simp),
      List.append_assoc, numberLength_digits (isDigit_of_digital hfs)
      (Decimal.digitText_ne_nil hfne), numberLength_of_power hpower hrest]
    simp [Except.map]
    omega

theorem scanFrom_number {m : Nat} {k : Int} (h : Decimal.Numeral cs m k) (hrest : Ends rest) :
    scanFrom place (cs ++ rest) =
      (scanFrom (place + cs.length) rest).map (⟨.number, String.ofList cs, place⟩ :: ·) := by
  have hlength := numberLength_of_numeral h hrest
  have hlast : cs.getLast? ≠ some '.' := by
    obtain ⟨d, hd, hplain⟩ := h.ends
    rw [hd]
    rintro ⟨⟩
    simp [Text.isPlainDigit] at hplain
  obtain ⟨c, cs, rfl, hc⟩ := h.starts
  have hdigit := Text.isDigit_of_isDecimal (Text.isDecimal_of_isPlainDigit hc)
  have hblank := Text.isBlank_of_isDecimal (Text.isDecimal_of_isPlainDigit hc)
  have hpoint : c ≠ '.' := Text.ne_of_isDecimal (Text.isDecimal_of_isPlainDigit hc) (by simp)
  have hextent : numberExtent place (c :: cs ++ rest) = .ok (c :: cs).length := by
    rw [numberExtent, hlength]
    dsimp only
    rw [List.take_left, if_neg (by simp [hpoint]), if_neg hlast]
  have hlexeme : lexeme place c (cs ++ rest) = .ok (.number, cs.length) := by
    rw [lexeme, if_pos (by simp [hdigit]), ← List.cons_append, hextent]
    rfl
  exact scanFrom_lexeme hblank hlexeme

end

end

/-- A row of pieces each of which ends before the next one. -/
inductive Proper : List Piece → Prop
  | nil : Proper []
  | blank {ps : List Piece} : Proper ps → Proper (.blank :: ps)
  | symbol {ps : List Piece} {c : Char} {kind : TokenKind} : symbolKind? c = some kind →
      Proper ps → Proper (.word kind [c] :: ps)
  | number {ps : List Piece} {cs : List Char} {m : Nat} {k : Int} : Decimal.Numeral cs m k →
      Ends (charsOf ps) → Proper ps → Proper (.word .number cs :: ps)
  | cell {ps : List Piece} {p : Position} : p.IsWritable → Ends (charsOf ps) → Proper ps →
      Proper (.cell p :: ps)
  | name {ps : List Piece} {cs : List Char} : IsWord cs → Proper (.first :: ps) →
      Proper (.word .name cs :: .first :: ps)

def Token.word (t : Token) : TokenKind × List Char := (t.kind, t.text.toList)

/-- The tokens are the words of the pieces. -/
def Shows (ts : List Token) (ps : List Piece) : Prop := ts.map Token.word = ps.filterMap Piece.word?

section

variable {ps : List Piece} {kind : TokenKind} {cs : List Char} {ts : List Token} {place next : Nat}

theorem Shows.scan {rest : List Char} (hts : Shows ts ps) (hrest : scanFrom next rest = .ok ts)
    (h : scanFrom place (cs ++ rest) =
      (scanFrom next rest).map (⟨kind, String.ofList cs, place⟩ :: ·)) :
    ∃ us, scanFrom place (cs ++ rest) = .ok us ∧ Shows us (.word kind cs :: ps) := by
  refine ⟨⟨kind, String.ofList cs, place⟩ :: ts, by rw [h, hrest]; rfl, ?_⟩
  rw [Shows, List.map_cons, hts,
    List.filterMap_cons_some (f := Piece.word?) (b := (kind, cs)) rfl, Token.word,
    String.toList_ofList]

theorem Proper.scan (h : Proper ps) (place : Nat) :
    ∃ ts, scanFrom place (charsOf ps) = .ok ts ∧ Shows ts ps := by
  induction h generalizing place with
  | nil => exact ⟨[], by rw [charsOf_nil, scanFrom], rfl⟩
  | blank _ ih =>
    obtain ⟨ts, hrun, hts⟩ := ih (place + 1)
    refine ⟨ts, ?_, hts⟩
    rw [charsOf_cons]
    exact scanFrom_blank.trans hrun
  | symbol hc _ ih =>
    obtain ⟨ts, hrun, hts⟩ := ih (place + 1)
    exact hts.scan hrun (scanFrom_symbol hc)
  | number hcs hends _ ih =>
    obtain ⟨ts, hrun, hts⟩ := ih _
    exact hts.scan hrun (scanFrom_number hcs hends)
  | cell hp hends _ ih =>
    obtain ⟨ts, hrun, hts⟩ := ih _
    exact hts.scan hrun (scanFrom_cell hp hends)
  | name hcs _ ih =>
    obtain ⟨ts, hrun, hts⟩ := ih _
    exact hts.scan hrun (scanFrom_name hcs)

end

section

variable {ps qs : List Piece} {kind : TokenKind} {cs : List Char} {ts : List Token}

theorem Shows.append (h : Shows ts (ps ++ qs)) :
    ∃ us vs, ts = us ++ vs ∧ Shows us ps ∧ Shows vs qs := by
  rw [Shows, List.filterMap_append] at h
  obtain ⟨us, vs, rfl, hus, hvs⟩ := List.map_eq_append_iff.1 h
  exact ⟨us, vs, rfl, hus, hvs⟩

theorem Shows.cons (h : Shows ts (.word kind cs :: ps)) :
    ∃ t us, ts = t :: us ∧ t.kind = kind ∧ t.text.toList = cs ∧ Shows us ps := by
  obtain ⟨t, us, rfl, ht, hus⟩ := List.map_eq_cons_iff.1 h
  obtain ⟨rfl, rfl⟩ := Prod.ext_iff.1 ht
  exact ⟨t, us, rfl, rfl, rfl, hus⟩

theorem Shows.nil (h : Shows ts []) : ts = [] := List.map_eq_nil_iff.1 h

theorem Shows.blank (h : Shows ts (.blank :: ps)) : Shows ts ps := h

theorem Shows.single (h : Shows ts [.word kind cs]) :
    ∃ t, ts = [t] ∧ t.kind = kind ∧ t.text.toList = cs := by
  obtain ⟨t, us, rfl, hkind, htext, hus⟩ := h.cons
  exact ⟨t, by rw [hus.nil], hkind, htext⟩

theorem Shows.inside (h : Shows ts (enclosed true ps)) :
    ∃ first us last, ts = first :: us ++ [last] ∧ first.kind = .openParen ∧
      last.kind = .closeParen ∧ Shows us ps := by
  have hcons : Shows ts (.first :: (ps ++ [.last])) := h
  obtain ⟨first, rest, rfl, hfirst, -, hrest⟩ := hcons.cons
  obtain ⟨us, vs, rfl, hus, hvs⟩ := hrest.append
  obtain ⟨last, rfl, hlast, -⟩ := hvs.single
  exact ⟨first, us, last, rfl, hfirst, hlast, hus⟩

theorem Shows.binary {op : String} {left right : Tree}
    (h : Shows ts (Tree.pieces (.binary (.ofSymbol op) left right))) :
    ∃ ls o rs, ts = ls ++ o :: rs ∧
      Shows ls (enclosed (Tree.brackets (.ofSymbol op) left right).1 left.pieces) ∧
      o.kind = .operator ∧ o.text = op ∧
      Shows rs (enclosed (Tree.brackets (.ofSymbol op) left right).2 right.pieces) := by
  rw [Tree.pieces] at h
  obtain ⟨ls, us, rfl, hls, hus⟩ := h.append
  obtain ⟨o, rs, rfl, hkind, htext, hrs⟩ := hus.blank.cons
  rw [Operator.symbol_ofSymbol] at htext
  exact ⟨ls, o, rs, rfl, hls, hkind, String.toList_inj.1 htext, hrs.blank⟩

end

section

variable {ps : List Piece} {rest : List Char}

theorem ends_nil : Ends [] := ⟨by simp, rfl⟩

theorem ends_cons {c : Char} (h : c ∈ [')', ',', ':']) : Ends (c :: rest) := by
  have hall : ∀ c ∈ [')', ',', ':'], isWordPart c = false ∧ c ≠ '.' ∧ Text.isBlank c = false ∧
      (c == '(') = false := List.all_iff_forall_prop.1 (by decide +kernel)
  obtain ⟨hpart, hpoint, hblank, hopen⟩ := hall c h
  refine ⟨by simp [hpart, hpoint], ?_⟩
  rw [Text.trimStart, List.dropWhile_cons_of_neg (by simp [hblank])]
  exact hopen

theorem symbol_of_isArithmetic {op : Operator} (h : op.IsArithmetic) :
    ∃ c, op.symbol.toList = [c] ∧ Text.isBlank c = false ∧ (c == '(') = false ∧
      symbolKind? c = some .operator := by
  cases op with
  | other s => exact absurd rfl (h s)
  | add => exact ⟨'+', by decide⟩
  | subtract => exact ⟨'-', by decide⟩
  | multiply => exact ⟨'*', by decide⟩
  | divide => exact ⟨'/', by decide⟩

theorem ends_operator {op : Operator} (h : op.IsArithmetic) :
    Ends (charsOf (.blank :: .operator op :: ps)) := by
  obtain ⟨c, hchars, hblank, hopen, -⟩ := symbol_of_isArithmetic h
  have hspace : isWordPart ' ' = false ∧ ' ' ≠ '.' := by decide +kernel
  rw [charsOf_cons, charsOf_cons, Piece.operator, Piece.chars, Piece.chars, hchars]
  refine ⟨by simpa using hspace, ?_⟩
  rw [Text.trimStart, List.singleton_append, List.dropWhile_cons_of_pos Text.isBlank_space,
    List.singleton_append, List.dropWhile_cons_of_neg (by simp [hblank])]
  exact hopen

theorem Proper.operator {op : Operator} (h : op.IsArithmetic) (hps : Proper ps) :
    Proper (.operator op :: ps) := by
  obtain ⟨c, hchars, -, -, hkind⟩ := symbol_of_isArithmetic h
  rw [Piece.operator, hchars]
  exact .symbol hkind hps

/-- A row goes well before another that ends it. -/
def Leads (qs : List Piece) : Prop :=
  ∀ ⦃ps⦄, Proper ps → Ends (charsOf ps) → Proper (qs ++ ps)

theorem Leads.enclosed {qs : List Piece} (h : Leads qs) (needed : Bool) :
    Leads (enclosed needed qs) := by
  cases needed with
  | false => exact h
  | true =>
    intro ps hps _
    have hlast : Proper (.last :: ps) := .symbol rfl hps
    have hfirst : Proper (.first :: (qs ++ .last :: ps)) :=
      .symbol rfl (h hlast (ends_cons (by simp)))
    simpa [GridCalc.enclosed] using hfirst

theorem leads_arguments {ts : List Tree} (h : ∀ t ∈ ts, Leads t.pieces) :
    Leads (Tree.argumentPieces ts) := by
  intro ps hps hends
  induction ts with
  | nil => exact hps
  | cons t ts ih =>
    cases ts with
    | nil =>
      rw [Tree.argumentPieces]
      exact h t (by simp) hps hends
    | cons u us =>
      have hrest := ih fun x hx => h x (List.mem_cons_of_mem _ hx)
      have hcomma : Proper (.comma :: .blank :: (Tree.argumentPieces (u :: us) ++ ps)) :=
        .symbol rfl (.blank hrest)
      rw [Tree.argumentPieces, List.append_assoc, List.cons_append, List.cons_append]
      exact h t (by simp) hcomma (ends_cons (by simp))

theorem leads_pieces {t : Tree} (ht : t.Writable) : Leads t.pieces := by
  induction ht with
  | number hx =>
    obtain ⟨cs, m, k, htext, hcs, -⟩ := Decimal.numeral_reads hx
    intro ps hps hends
    rw [Tree.pieces, htext, String.toList_ofList]
    exact .number hcs hends hps
  | relative hp =>
    intro ps hps hends
    rw [Tree.pieces]
    exact .cell hp hends hps
  | absolute hp =>
    intro ps hps hends
    rw [Tree.pieces]
    exact .symbol rfl (.cell hp hends hps)
  | region hp hq =>
    intro ps hps hends
    rw [Tree.pieces]
    exact .cell hp (ends_cons (by simp)) (.symbol rfl (.cell hq hends hps))
  | binary hop _ _ ihl ihr =>
    intro ps hps hends
    rw [Tree.pieces, List.append_assoc]
    refine ihl.enclosed _ ?_ (ends_operator hop)
    exact .blank (.operator hop (.blank (ihr.enclosed _ hps hends)))
  | sign hop _ ih =>
    intro ps hps hends
    rw [Tree.pieces]
    exact .operator hop (ih.enclosed _ hps hends)
  | call hname _ _ ih =>
    intro ps hps hends
    have hlast : Proper (.last :: ps) := .symbol rfl hps
    have harguments := leads_arguments ih hlast (ends_cons (by simp))
    rw [Tree.pieces]
    simpa using Proper.name hname (.symbol rfl harguments)

end

section

variable {cs ds : List Char}

structure Bare (cs : List Char) : Prop where
  head : ∃ c, cs.head? = some c ∧ Text.isBlank c = false
  last : ∃ c, cs.getLast? = some c ∧ Text.isBlank c = false

theorem bare_singleton {c : Char} (h : Text.isBlank c = false) : Bare [c] :=
  ⟨⟨c, rfl, h⟩, ⟨c, rfl, h⟩⟩

theorem Bare.join (hcs : Bare cs) (hds : Bare ds) (mid : List Char) : Bare (cs ++ (mid ++ ds)) := by
  obtain ⟨c, hc, hblank⟩ := hcs.head
  obtain ⟨d, hd, hblank'⟩ := hds.last
  refine ⟨⟨c, by rw [List.head?_append, hc, Option.some_or], hblank⟩, ⟨d, ?_, hblank'⟩⟩
  rw [List.getLast?_append, List.getLast?_append, hd]
  rfl

theorem Bare.append (hcs : Bare cs) (hds : Bare ds) : Bare (cs ++ ds) := hcs.join hds []

theorem Bare.trim (h : Bare cs) : Text.trim cs = cs := by
  have hkeep : ∀ {cs : List Char}, (∃ c, cs.head? = some c ∧ Text.isBlank c = false) →
      cs.dropWhile Text.isBlank = cs := by
    rintro cs ⟨c, hc, hblank⟩
    cases cs with
    | nil => rfl
    | cons d cs =>
      cases hc
      exact List.dropWhile_cons_of_neg (by simp [hblank])
  rw [Text.trim, Text.trimStart, hkeep h.head, Text.trimEnd,
    hkeep (by simpa using h.last), List.reverse_reverse]

theorem Bare.enclosed {ps : List Piece} (h : Bare (charsOf ps)) (needed : Bool) :
    Bare (charsOf (enclosed needed ps)) := by
  cases needed with
  | false => exact h
  | true =>
    have hjoin := (bare_singleton (c := '(') rfl).join (bare_singleton (c := ')') rfl) (charsOf ps)
    simpa [GridCalc.enclosed, charsOf_cons, charsOf_append, Piece.first, Piece.last, Piece.chars]
      using hjoin

theorem isBlank_of_isPlainDigit {c : Char} (h : Text.isPlainDigit c) : Text.isBlank c = false :=
  Text.isBlank_of_isDecimal (Text.isDecimal_of_isPlainDigit h)

theorem bare_letters {letters digits : List Char} (hl : letters ≠ [])
    (hletters : ∀ c ∈ letters, Text.isColumnLetter c) (hd : digits ≠ [])
    (hdigits : ∀ c ∈ digits, Text.isPlainDigit c) : Bare (letters ++ digits) := by
  have hblank : ∀ d < 26, Text.isBlank (columnLetter d) = false := by decide
  obtain ⟨c, ls, rfl⟩ := List.exists_cons_of_ne_nil hl
  obtain ⟨d, hlt, rfl⟩ := exists_columnLetter (hletters c (by simp))
  refine ⟨⟨columnLetter d, rfl, hblank d hlt⟩, ⟨digits.getLast hd, ?_, ?_⟩⟩
  · rw [List.getLast?_append, List.getLast?_eq_some_getLast hd, Option.some_or]
  · exact isBlank_of_isPlainDigit (hdigits _ (List.getLast_mem hd))

theorem bare_cell {p : Position} (hp : p.IsWritable) : Bare (p.letters ++ p.digits) :=
  bare_letters hp.letters_ne_nil (fun _ => Position.isColumnLetter_of_mem) p.digits_ne_nil
    fun _ => Position.isPlainDigit_of_mem

theorem bare_pieces {t : Tree} (ht : t.Writable) : Bare (charsOf t.pieces) := by
  induction ht with
  | number hx =>
    obtain ⟨cs, m, k, htext, hcs, -⟩ := Decimal.numeral_reads hx
    obtain ⟨c, rest, hstart, hc⟩ := hcs.starts
    obtain ⟨d, hlast, hd⟩ := hcs.ends
    rw [Tree.pieces, htext, String.toList_ofList, charsOf_cons, charsOf_nil, List.append_nil]
    exact ⟨⟨c, by rw [hstart]; rfl, isBlank_of_isPlainDigit hc⟩,
      ⟨d, hlast, isBlank_of_isPlainDigit hd⟩⟩
  | relative hp => simpa [Tree.pieces, charsOf_cons, Piece.cell, Piece.chars] using bare_cell hp
  | absolute hp =>
    have h := (bare_singleton (c := '$') rfl).append (bare_cell hp)
    simpa [Tree.pieces, charsOf_cons, Piece.cell, Piece.chars] using h
  | region hp hq =>
    have h := (bare_cell hp).join (bare_cell hq) [':']
    simpa [Tree.pieces, charsOf_cons, Piece.cell, Piece.chars] using h
  | @binary op left right _ _ _ ihl ihr =>
    have h := (ihl.enclosed (Tree.brackets op left right).1).join
      (ihr.enclosed (Tree.brackets op left right).2) (' ' :: op.symbol.toList ++ [' '])
    simpa [Tree.pieces, charsOf_append, charsOf_cons, Piece.operator, Piece.chars] using h
  | @sign op operand hop _ ih =>
    obtain ⟨c, hchars, hblank, -, -⟩ := symbol_of_isArithmetic hop
    have h := (bare_singleton hblank).append (ih.enclosed operand.isBinary)
    simpa [Tree.pieces, charsOf_cons, Piece.operator, Piece.chars, hchars] using h
  | @call name arguments hname _ _ _ =>
    obtain ⟨c, cs, hchars, hblank⟩ := hname.start
    have h := (bare_singleton hblank).join (bare_singleton (c := ')') rfl)
      (cs ++ '(' :: charsOf (Tree.argumentPieces arguments))
    simpa [Tree.pieces, charsOf_append, charsOf_cons, Piece.first, Piece.last, Piece.chars, hchars]
      using h

/-- A formula whose parts can be written is cut into its words. -/
theorem scan_text {t : Tree} (ht : t.Writable) :
    ∃ ts, scan t.text = .ok ts ∧ Shows ts t.pieces := by
  have hproper : Proper t.pieces := by simpa using leads_pieces ht .nil ends_nil
  obtain ⟨ts, hrun, hts⟩ := hproper.scan 0
  exact ⟨ts, by rw [scan, Tree.text, String.toList_ofList, (bare_pieces ht).trim, hrun], hts⟩

end

end GridCalc

import CoppiceWallet.Quotes.Formatting
import CoppiceWallet.Zec.Amounts

/-! # Reading ZEC amounts -/

namespace CoppiceWallet.Zec

open CoppiceWallet.Lib CoppiceWallet.Store CoppiceWallet.Quotes

/-- A numeral that is only digits with a point, and has at most eight after the point. -/
structure IsPlain (p : Numeral) : Prop where
  sign : p.sign = .unsigned
  exponent : p.exponent = none
  places : p.places ≤ 8

theorem IsPlain.text_eq {p : Numeral} (h : IsPlain p) : p.text = mantissaText p := by
  rw [Quotes.text_eq,h.sign,Numeral.exponentText_none h.exponent,List.append_nil]
  rfl

theorem IsPlain.value_eq {p : Numeral} (h : IsPlain p) (hp : p.digits ≠ []) :
    p.value = some (p.mantissa * (10 : ℚ) ^ (-p.places : ℤ)) := by
  simp [Numeral.value,Numeral.exponentValue,hp,h.sign,h.exponent,Sign.factor]

theorem cast_mantissa {m places : Nat} (h : places ≤ 8) :
    ((m * 10 ^ (8 - places) : ℕ) : ℚ) = m * (10 : ℚ) ^ (-places : ℤ) * 10 ^ 8 :=
  cast_mul_pow_eq_iff.mpr (.inr (by omega))

theorem split_append {separator : Char} {first rest : Text} (h : separator ∉ first) :
    split separator (first ++ separator :: rest) = first :: split separator rest := by
  induction first with
  | nil => simp [split]
  | cons c cs ih =>
    have hc : c ≠ separator := fun hc => h (by simp [hc])
    have hcs : separator ∉ cs := fun hcs => h (List.mem_cons_of_mem _ hcs)
    simp [split,hc,ih hcs]

theorem split_point {whole fraction : Text} (hwhole : ∀ c ∈ whole, c.isDigit = true)
    (hfraction : ∀ c ∈ fraction, c.isDigit = true) :
    split '.' (whole ++ '.' :: fraction) = [whole,fraction] := by
  rw [split_append (point_notMem hwhole),split_of_not_mem (point_notMem hfraction)]

theorem digitsOnly_iff {value : Text} : digitsOnly value = true ↔ ∀ c ∈ value, c.isDigit = true :=
  List.all_eq_true

/-- `parseZecAmount` once the parts are there. -/
def parseParts (wholePart fractionPart : Text) : Option Nat :=
  if ¬digitsOnly wholePart ∨ ¬digitsOnly fractionPart then none
  else if 8 < fractionPart.length then none
  else
    some (digitsValue (if wholePart = [] then ['0'] else wholePart) * zatoshiPerZec +
      digitsValue (padRight fractionPart 8))

theorem parseZecAmount_eq (input : Text) : parseZecAmount input =
    if trim input = [] ∨ trim input = ['.'] ∨ ',' ∈ trim input then none
    else
      let value := if (trim input).head? = some '.' then '0' :: trim input else trim input
      if 2 < (split '.' value).length then none
      else parseParts ((split '.' value).getD 0 []) ((split '.' value).getD 1 []) := rfl

theorem digitsValue_padRight {digits : Text} (h : digits.length ≤ 8) :
    digitsValue (padRight digits 8) = digitsValue digits * 10 ^ (8 - digits.length) := by
  have hwidth : ((8 : Int) - digits.length).toNat = 8 - digits.length := by omega
  rw [padRight,digitsValue_zeros,hwidth]

theorem parseParts_digits {whole fraction : Text} (hwhole : ∀ c ∈ whole, c.isDigit = true)
    (hfraction : ∀ c ∈ fraction, c.isDigit = true) (hlength : fraction.length ≤ 8) :
    parseParts whole fraction =
      some (digitsValue (whole ++ fraction) * 10 ^ (8 - fraction.length)) := by
  have hpow : (10 : Nat) ^ fraction.length * 10 ^ (8 - fraction.length) = zatoshiPerZec := by
    rw [← pow_add,show fraction.length + (8 - fraction.length) = 8 by omega]
    rfl
  have hempty : digitsValue (if whole = [] then ['0'] else whole) = digitsValue whole := by
    split
    · rename_i hnil
      rw [hnil]
      rfl
    · rfl
  have hdigits := digitsOnly_iff.mpr hwhole
  have hdigits' := digitsOnly_iff.mpr hfraction
  have hfits : ¬ 8 < fraction.length := by omega
  simp only [parseParts,hdigits,hdigits',hfits,not_true_eq_false,or_self,if_false]
  rw [hempty,digitsValue_padRight hlength,digitsValue_append,← hpow]
  congr 1
  ring

theorem parseParts_some {whole fraction : Text} {n : Nat} (h : parseParts whole fraction = some n) :
    (∀ c ∈ whole, c.isDigit = true) ∧ (∀ c ∈ fraction, c.isDigit = true) ∧ fraction.length ≤ 8 := by
  unfold parseParts at h
  split at h
  · cases h
  · rename_i hdigits
    split at h
    · cases h
    · rename_i hlength
      simp only [not_or,not_not] at hdigits
      exact ⟨digitsOnly_iff.mp hdigits.1,digitsOnly_iff.mp hdigits.2,by omega⟩

theorem parseZecAmount_plain {p : Numeral} (h : IsPlain p) (hp : p.digits ≠ []) {input : Text}
    (htext : p.text = trim input) :
    parseZecAmount input = some (p.mantissa * 10 ^ (8 - p.places)) := by
  have hvalue : trim input = mantissaText p := htext.symm.trans h.text_eq
  have hcomma : ',' ∉ mantissaText p := mantissaText_notMem (by simp [isMantissaChar])
  have hplaces := h.places
  rw [parseZecAmount_eq,hvalue]
  unfold Numeral.places at hplaces ⊢
  unfold Numeral.mantissa
  unfold Numeral.digits at hp ⊢
  unfold mantissaText Numeral.fractionText at hcomma ⊢
  cases hfraction : p.fraction with
  | none =>
    simp only [hfraction,Option.getD_none,List.append_nil] at hp hcomma ⊢
    have hpoint : p.whole ≠ ['.'] := fun heq => point_notMem p.wholeDigits (by simp [heq])
    have hhead : p.whole.head? ≠ some '.' := fun hhead =>
      point_notMem p.wholeDigits (List.mem_of_head? hhead)
    rw [if_neg (by simp [hp,hpoint,hcomma]),if_neg hhead,
      split_of_not_mem (point_notMem p.wholeDigits)]
    have hnone : ∀ c ∈ ([] : Text), c.isDigit = true := by simp
    simpa using parseParts_digits p.wholeDigits hnone (by simp)
  | some cs =>
    have hdigits := p.fractionDigits cs hfraction
    simp only [hfraction,Option.getD_some] at hp hcomma hplaces ⊢
    have hpoint : p.whole ++ '.' :: cs ≠ ['.'] := by
      intro heq
      cases hwhole : p.whole with
      | nil =>
        rw [hwhole,List.nil_append] at heq hp
        exact hp (List.cons.inj heq).2
      | cons c whole => simp [hwhole] at heq
    rw [if_neg (by simp [hpoint,hcomma])]
    by_cases hwhole : p.whole = []
    · have hzero : ∀ c ∈ ['0'], c.isDigit = true := by decide
      have hsplit := split_point hzero hdigits
      have hparts := parseParts_digits hzero hdigits hplaces
      rw [List.cons_append,List.nil_append,digitsValue_cons_zero] at hparts
      rw [List.cons_append,List.nil_append] at hsplit
      simp only [hwhole,List.nil_append,List.head?_cons,if_true,hsplit]
      simpa using hparts
    · have hhead : (p.whole ++ '.' :: cs).head? ≠ some '.' := by
        rw [List.head?_append_of_ne_nil _ hwhole]
        exact fun hhead => point_notMem p.wholeDigits (List.mem_of_head? hhead)
      rw [if_neg hhead,split_point p.wholeDigits hdigits]
      simpa using parseParts_digits p.wholeDigits hdigits hplaces

theorem exists_parts {value : Text} (h : (split '.' value).length ≤ 2) :
    ∃ (whole : Text) (fraction : Option Text), split '.' value = whole :: fraction.toList ∧
      value = whole ++ (fraction.map ('.' :: ·)).getD [] := by
  match hsplit : split '.' value with
  | [] => exact absurd hsplit (split_ne_nil '.' value)
  | [whole] => exact ⟨whole,none,rfl,by simp [split_singleton hsplit]⟩
  | [whole,fraction] => exact ⟨whole,some fraction,rfl,by simp [split_pair hsplit]⟩
  | _ :: _ :: _ :: _ => simp [hsplit] at h

theorem parseZecAmount_some {input : Text} {n : Nat} (h : parseZecAmount input = some n) :
    ∃ p, IsPlain p ∧ p.digits ≠ [] ∧ p.text = trim input := by
  rw [parseZecAmount_eq] at h
  split at h
  · cases h
  · rename_i hplain
    simp only [not_or] at hplain
    have hne := hplain.1
    have hpoint := hplain.2.1
    simp only at h
    generalize hread : (if (trim input).head? = some '.' then '0' :: trim input else trim input) =
      value at h
    by_cases hparts : 2 < (split '.' value).length
    · rw [if_pos hparts] at h
      cases h
    · rw [if_neg hparts] at h
      obtain ⟨whole,fraction,hsplit,hvalue⟩ := exists_parts (Nat.le_of_not_lt hparts)
      rw [← hread] at hvalue
      rw [hsplit] at h
      cases fraction with
      | none =>
        obtain ⟨hwhole,_,_⟩ := parseParts_some h
        have hhead : (trim input).head? ≠ some '.' := by
          intro hhead
          rw [if_pos hhead] at hvalue
          simp only [Option.map_none,Option.getD_none,List.append_nil] at hvalue
          have hmem := List.mem_cons_of_mem '0' (List.mem_of_head? hhead)
          rw [hvalue] at hmem
          exact point_notMem hwhole hmem
        rw [if_neg hhead] at hvalue
        simp only [Option.map_none,Option.getD_none,List.append_nil] at hvalue
        refine ⟨⟨.unsigned,whole,none,none,hwhole,by simp⟩,⟨rfl,rfl,by simp [Numeral.places]⟩,?_,?_⟩
        · simpa [Numeral.digits,← hvalue] using hne
        · simp [Numeral.text,Numeral.fractionText,Numeral.exponentText,Sign.text,hvalue]
      | some fraction =>
        obtain ⟨hwhole,hfraction,hlength⟩ := parseParts_some h
        simp only [Option.map_some,Option.getD_some] at hvalue hfraction hlength
        by_cases hhead : (trim input).head? = some '.'
        · -- a zero was put before the point
          obtain ⟨rest,hrest⟩ := List.head?_eq_some_iff.mp hhead
          rw [if_pos hhead,hrest] at hvalue
          have hzero : ∀ c ∈ ['0'], c.isDigit = true := by decide
          have hpoints : ∀ cs : Text, ∀ c ∈ ('.' :: cs).head?, c.isDigit = false := by simp
          have hsame := eq_and_eq_of_append_eq hzero hwhole (hpoints rest) (hpoints fraction) hvalue
          have hfraction' : fraction = rest := ((List.cons.inj hsame.2).2).symm
          subst hfraction'
          refine ⟨⟨.unsigned,[],some fraction,none,by simp,by simpa using hfraction⟩,
            ⟨rfl,rfl,by simpa [Numeral.places] using hlength⟩,?_,?_⟩
          · intro hnil
            rw [hrest] at hpoint
            simp only [Numeral.digits,List.nil_append,Option.getD_some] at hnil
            exact hpoint (by rw [hnil])
          · simp [Numeral.text,Numeral.fractionText,Numeral.exponentText,Sign.text,hrest]
        · rw [if_neg hhead] at hvalue
          refine ⟨⟨.unsigned,whole,some fraction,none,hwhole,by simpa using hfraction⟩,
            ⟨rfl,rfl,by simpa [Numeral.places] using hlength⟩,?_,?_⟩
          · intro hnil
            simp only [Numeral.digits,Option.getD_some,List.append_eq_nil_iff] at hnil
            rw [hnil.1] at hvalue
            exact hhead (by rw [hvalue]; rfl)
          · simp [Numeral.text,Numeral.fractionText,Numeral.exponentText,Sign.text,hvalue]

theorem parseZecAmount_iff {input : Text} {n : Nat} : parseZecAmount input = some n ↔
    ∃ p, IsPlain p ∧ p.digits ≠ [] ∧ p.text = trim input ∧ n = p.mantissa * 10 ^ (8 - p.places) := by
  constructor
  · intro h
    obtain ⟨p,hplain,hdigits,htext⟩ := parseZecAmount_some h
    rw [parseZecAmount_plain hplain hdigits htext] at h
    exact ⟨p,hplain,hdigits,htext,(Option.some.inj h).symm⟩
  · intro h
    obtain ⟨p,hplain,hdigits,htext,hn⟩ := h
    rw [parseZecAmount_plain hplain hdigits htext,hn]

/-- A text of an amount field. -/
def IsTyped (text : Text) : Prop := ∃ p, IsPlain p ∧ p.text = text

theorem isTyped_nil : IsTyped [] :=
  ⟨⟨.unsigned,[],none,none,by simp,by simp⟩,⟨rfl,rfl,by simp [Numeral.places]⟩,rfl⟩

theorem formatEditUpdate_isTyped {oldText : Text} (h : IsTyped oldText) (newText : Text) :
    IsTyped (formatEditUpdate oldText newText) := by
  unfold formatEditUpdate
  generalize newText.map (fun c => if c = ',' then '.' else c) = text
  by_cases hnil : text = []
  · rw [if_pos hnil,hnil]
    exact isTyped_nil
  rw [if_neg hnil]
  by_cases hchars : ∀ c ∈ text, c.isDigit = true ∨ c = '.'
  swap
  · rw [if_pos hchars]
    exact h
  rw [if_neg (not_not.mpr hchars)]
  by_cases hcount : 1 < text.count '.'
  · rw [if_pos hcount]
    exact h
  rw [if_neg hcount]
  simp only
  split
  · exact h
  · rename_i hlength
    have hdigits : ∀ cs : Text, (∀ c ∈ cs, c ∈ text) → '.' ∉ cs → ∀ c ∈ cs, c.isDigit = true := by
      intro cs hcs hnot c hc
      rcases hchars c (hcs c hc) with hdigit | hpoint
      · exact hdigit
      · exact absurd (hpoint ▸ hc) hnot
    rcases exists_point (Nat.le_of_not_lt hcount) with hnot | ⟨whole,fraction,htext,hwhole,hfraction⟩
    · refine ⟨⟨.unsigned,text,none,none,hdigits text (fun _ hc => hc) hnot,by simp⟩,
        ⟨rfl,rfl,by simp [Numeral.places]⟩,?_⟩
      simp [Numeral.text,Numeral.fractionText,Numeral.exponentText,Sign.text]
    · subst htext
      have hindex : indexOf '.' (whole ++ '.' :: fraction) = whole.length := by
        simp [indexOf,List.idxOf_append_of_notMem hwhole]
      rw [hindex] at hlength
      simp only [List.length_append,List.length_cons] at hlength
      refine ⟨⟨.unsigned,whole,some fraction,none,
        hdigits whole (fun _ hc => List.mem_append_left _ hc) hwhole,?_⟩,⟨rfl,rfl,?_⟩,?_⟩
      · intro cs hcs
        cases hcs
        exact hdigits fraction (fun _ hc => by simp [hc]) hfraction
      · simp only [Numeral.places,Option.getD_some]
        omega
      · simp [Numeral.text,Numeral.fractionText,Numeral.exponentText,Sign.text]

theorem edits_isTyped (edits : List Text) : IsTyped (edits.foldl formatEditUpdate []) := by
  have hfold : ∀ text, IsTyped text → IsTyped (edits.foldl formatEditUpdate text) := by
    induction edits with
    | nil => exact fun _ h => h
    | cons edit edits ih => exact fun text h => ih _ (formatEditUpdate_isTyped h edit)
  exact hfold [] isTyped_nil

theorem isTyped_cases {text : Text} (h : IsTyped text) :
    text = [] ∨ text = ['.'] ∨ (parseZecAmount text).isSome := by
  obtain ⟨p,hplain,htext⟩ := h
  have hmantissa : mantissaText p = text := hplain.text_eq.symm.trans htext
  by_cases hp : p.digits = []
  · simp only [Numeral.digits,List.append_eq_nil_iff] at hp
    unfold mantissaText Numeral.fractionText at hmantissa
    cases hfraction : p.fraction with
    | none => exact .inl (by simpa [hp.1,hfraction] using hmantissa.symm)
    | some cs =>
      have hcs : cs = [] := by simpa [hfraction] using hp.2
      exact .inr (.inl (by simpa [hp.1,hfraction,hcs] using hmantissa.symm))
  · have htrim : p.text = trim text := by
      rw [htext,← hmantissa]
      exact (mantissaText_plain p).1.symm
    exact .inr (.inr (by simp [parseZecAmount_plain hplain hp htrim]))

end CoppiceWallet.Zec

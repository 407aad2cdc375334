import CoppiceWallet.Quotes.Amounts

/-! # From a text to base units -/

namespace CoppiceWallet.Quotes

open CoppiceWallet.Lib CoppiceWallet.Store

theorem toNat_toLower (c : Char) :
    c.toLower.toNat = if 65 ≤ c.toNat ∧ c.toNat ≤ 90 then c.toNat + 32 else c.toNat := by
  have hrange : (c.val ≥ 'A'.val ∧ c.val ≤ 'Z'.val) ↔ 65 ≤ c.toNat ∧ c.toNat ≤ 90 := by
    rw [ge_iff_le,UInt32.le_iff_toNat_le,UInt32.le_iff_toNat_le]
    rfl
  unfold Char.toLower
  split
  · rename_i h
    rw [if_pos (hrange.mp h)]
    change (c.val + 32).toNat = _
    rw [UInt32.toNat_add]
    have hle : c.val.toNat ≤ 90 := (hrange.mp h).2
    change (c.val.toNat + 32) % 2 ^ 32 = c.val.toNat + 32
    omega
  · rename_i h
    rw [if_neg fun hin => h (hrange.mpr hin)]

theorem toLower_eq {c : Char} (h : c.toLower.toNat < 97) : c.toLower = c := by
  apply Char.toNat_inj.mp
  rw [toNat_toLower] at h ⊢
  split at h
  · omega
  · split
    · contradiction
    · rfl

theorem toLower_self {c : Char} (h : c.toNat < 65) : c.toLower = c := by
  apply toLower_eq
  rw [toNat_toLower,if_neg (by omega)]
  omega

theorem toLower_eq_e {c : Char} (h : c.toLower = 'e') : c = 'e' ∨ c = 'E' := by
  have hnat : c.toLower.toNat = 101 := congrArg Char.toNat h
  rw [toNat_toLower] at hnat
  split at hnat
  · right
    apply Char.toNat_inj.mp
    change c.toNat = 69
    omega
  · exact .inl (Char.toNat_inj.mp hnat)

/-- A character of a mantissa. -/
def isMantissaChar (c : Char) : Prop := c.isDigit = true ∨ c = '.'

theorem isMantissaChar.toNat_lt {c : Char} (h : isMantissaChar c) : c.toNat < 65 := by
  rcases h with h | rfl
  · simp only [Char.isDigit,Bool.and_eq_true,decide_eq_true_eq,ge_iff_le,
      UInt32.le_iff_toNat_le] at h
    have hle : c.toNat ≤ 57 := h.2
    omega
  · decide

theorem lower_eq_mantissa {text mantissa : Text} (h : lower text = mantissa)
    (hmantissa : ∀ c ∈ mantissa, isMantissaChar c) : text = mantissa := by
  subst h
  have hself : ∀ c ∈ text, Char.toLower c = c := fun c hc =>
    toLower_eq ((hmantissa _ (List.mem_map_of_mem hc)).toNat_lt.trans (by decide))
  calc text = text.map id := (List.map_id text).symm
    _ = text.map Char.toLower := List.map_congr_left fun c hc => (hself c hc).symm

theorem split_ne_nil (separator : Char) (text : Text) : split separator text ≠ [] := by
  induction text with
  | nil => simp [split]
  | cons c cs ih =>
    unfold split
    split
    · simp
    · split <;> simp

theorem split_singleton {separator : Char} {text piece : Text}
    (h : split separator text = [piece]) : text = piece := by
  induction text generalizing piece with
  | nil => simpa [split] using h
  | cons c cs ih =>
    unfold split at h
    split at h
    · have hnil := (List.cons.inj h).2
      exact absurd hnil (split_ne_nil separator cs)
    · split at h
      · rename_i hnil
        exact absurd hnil (split_ne_nil separator cs)
      · rename_i first rest hsplit
        obtain ⟨hpiece,hrest⟩ := List.cons.inj h
        rw [hrest] at hsplit
        rw [← hpiece,ih hsplit]

theorem split_pair {separator : Char} {text first second : Text}
    (h : split separator text = [first,second]) : text = first ++ separator :: second := by
  induction text generalizing first with
  | nil => simp [split] at h
  | cons c cs ih =>
    unfold split at h
    split at h
    · rename_i hc
      obtain ⟨hfirst,hrest⟩ := List.cons.inj h
      rw [← hfirst,split_singleton hrest,hc]
      rfl
    · split at h
      · rename_i hnil
        exact absurd hnil (split_ne_nil separator cs)
      · rename_i piece rest hsplit
        obtain ⟨hpiece,hrest⟩ := List.cons.inj h
        rw [hrest] at hsplit
        rw [← hpiece,ih hsplit]
        rfl

theorem split_of_not_mem {separator : Char} {text : Text} (h : separator ∉ text) :
    split separator text = [text] := by
  induction text with
  | nil => rfl
  | cons c cs ih =>
    have hc : c ≠ separator := fun hc => h (by simp [hc])
    have hcs : separator ∉ cs := fun hcs => h (List.mem_cons_of_mem _ hcs)
    simp [split,hc,ih hcs]

theorem exists_point {text : Text} (h : text.count '.' ≤ 1) :
    '.' ∉ text ∨ ∃ whole fraction, text = whole ++ '.' :: fraction ∧ '.' ∉ whole ∧ '.' ∉ fraction := by
  by_cases hmem : '.' ∈ text
  · right
    obtain ⟨whole,fraction,rfl⟩ := List.append_of_mem hmem
    simp only [List.count_append,List.count_cons_self] at h
    refine ⟨whole,fraction,rfl,?_,?_⟩
    · rw [← List.count_eq_zero]
      omega
    · rw [← List.count_eq_zero]
      omega
  · exact .inl hmem

/-- The text of a numeral without its sign and exponent. -/
def mantissaText (p : Numeral) : Text := p.whole ++ p.fractionText

theorem text_eq (p : Numeral) : p.text = p.sign.text ++ (mantissaText p ++ p.exponentText) := by
  simp [Numeral.text,mantissaText]

/-- How far the digits of a numeral are shifted. -/
def shiftOf (p : Numeral) (exponent decimals : Int) : Int :=
  int64 (decimals - int64 (p.places - exponent))

theorem point_notMem {digits : Text} (h : ∀ c ∈ digits, c.isDigit = true) : '.' ∉ digits := by
  intro hmem
  exact absurd (h '.' hmem) (by decide)

theorem filter_point {text : Text} (h : '.' ∉ text) :
    (text.filter fun c => decide (c ≠ '.')) = text := by
  apply List.filter_eq_self.mpr
  intro c hc
  apply decide_eq_true
  rintro rfl
  exact h hc

theorem filter_append_point {whole fraction : Text} (hwhole : '.' ∉ whole)
    (hfraction : '.' ∉ fraction) :
    ((whole ++ '.' :: fraction).filter fun c => decide (c ≠ '.')) = whole ++ fraction := by
  rw [List.filter_append,filter_point hwhole,List.filter_cons,if_neg (by simp),
    filter_point hfraction]

theorem mantissaText_parts (p : Numeral) : (mantissaText p).count '.' ≤ 1 ∧
    (if indexOf '.' (mantissaText p) = -1 then 0
      else (mantissaText p).length - indexOf '.' (mantissaText p) - 1) = (p.places : Int) ∧
    ((mantissaText p).filter fun c => decide (c ≠ '.')) = p.digits := by
  have hwhole := point_notMem p.wholeDigits
  unfold mantissaText Numeral.fractionText Numeral.places Numeral.digits
  cases hfraction : p.fraction with
  | none =>
    have hcount := List.count_eq_zero.mpr hwhole
    refine ⟨by simp [hcount],by simp [indexOf,hwhole],?_⟩
    simpa using filter_point hwhole
  | some cs =>
    have hdigits := p.fractionDigits cs hfraction
    have hcs := point_notMem hdigits
    refine ⟨?_,?_,?_⟩
    · simp [List.count_eq_zero.mpr hwhole,List.count_eq_zero.mpr hcs]
    · have hindex : indexOf '.' (p.whole ++ '.' :: cs) = p.whole.length := by
        simp [indexOf,List.idxOf_append_of_notMem hwhole]
      rw [hindex,if_neg (by omega)]
      simp only [List.length_append,List.length_cons,Option.getD_some]
      omega
    · exact filter_append_point hwhole hcs

theorem mantissaToBaseUnits_numeral {p : Numeral} (hp : p.digits ≠ []) (exponent decimals : Int) :
    mantissaToBaseUnits (mantissaText p) exponent decimals =
      if 0 ≤ shiftOf p exponent decimals then
        .ok (withoutLeadingZeros
          (padRight p.digits (int64 (p.digits.length + shiftOf p exponent decimals))))
      else .error (.oneClickApi "Amount exceeds token precision" none) := by
  obtain ⟨hcount,hplaces,hdigits⟩ := mantissaText_parts p
  have hvalid : ¬ (p.digits = [] ∨ ¬ ∀ c ∈ p.digits, c.isDigit = true) := by
    rintro (hnil | hnot)
    · exact hp hnil
    · exact hnot p.digits_isDigit
  unfold mantissaToBaseUnits
  rw [if_neg (not_lt.mpr hcount)]
  simp only [hplaces,hdigits]
  rw [if_neg hvalid]
  rfl

theorem mantissaToBaseUnits_ok {mantissa result : Text} {exponent decimals : Int}
    (h : mantissaToBaseUnits mantissa exponent decimals = .ok result) (sign : Sign)
    (exponent' : Option Exponent) : ∃ p : Numeral, p.sign = sign ∧ p.exponent = exponent' ∧
      mantissaText p = mantissa ∧ p.digits ≠ [] := by
  unfold mantissaToBaseUnits at h
  split at h
  · cases h
  · rename_i hcount
    simp only at h
    split at h
    · cases h
    · rename_i hvalid
      push Not at hvalid
      obtain ⟨hne,hdigits⟩ := hvalid
      rcases exists_point (not_lt.mp hcount) with hnone | ⟨whole,fraction,rfl,hwhole,hfraction⟩
      · rw [filter_point hnone] at hne hdigits
        refine ⟨⟨sign,mantissa,none,exponent',hdigits,by simp⟩,rfl,rfl,?_,?_⟩
        · simp [mantissaText,Numeral.fractionText]
        · simpa [Numeral.digits] using hne
      · rw [filter_append_point hwhole hfraction] at hne hdigits
        refine ⟨⟨sign,whole,some fraction,exponent',fun c hc => hdigits c (by simp [hc]),?_⟩,
          rfl,rfl,rfl,by simpa [Numeral.digits] using hne⟩
        intro cs hcs c hc
        cases hcs
        exact hdigits c (by simp [hc])

theorem withoutLeadingZeros_digits {digits : Text} (hdigits : ∀ c ∈ digits, c.isDigit = true)
    (hne : digits ≠ []) : withoutLeadingZeros digits = Nat.toDigits 10 (digitsValue digits) := by
  fun_induction withoutLeadingZeros digits with
  | case1 c cs hc ih =>
    rw [digitsValue_cons_zero]
    exact ih (fun d hd => hdigits d (List.mem_cons_of_mem _ hd)) (by simp)
  | case2 c cs hc => exact absurd (hdigits c (by simp)) hc
  | case3 digits hstart =>
    by_cases hhead : digits.head? = some '0'
    · obtain ⟨cs,rfl⟩ : ∃ cs, digits = '0' :: cs := by
        cases digits with
        | nil => cases hhead
        | cons c cs =>
          cases hhead
          exact ⟨cs,rfl⟩
      cases cs with
      | nil => rfl
      | cons c cs => exact absurd rfl (hstart c cs)
    · exact (toDigits_digitsValue hdigits hne hhead).2.symm

/-- How many zeros the parser puts after the digits of a numeral. -/
def paddingOf (p : Numeral) (exponent decimals : Int) : Nat :=
  (int64 (p.digits.length + shiftOf p exponent decimals) - p.digits.length).toNat

theorem padRight_digits {p : Numeral} (hp : p.digits ≠ []) (exponent decimals : Int) :
    withoutLeadingZeros
        (padRight p.digits (int64 (p.digits.length + shiftOf p exponent decimals))) =
      Nat.toDigits 10 (p.mantissa * 10 ^ paddingOf p exponent decimals) := by
  have hpadded : padRight p.digits (int64 (p.digits.length + shiftOf p exponent decimals)) =
      p.digits ++ List.replicate (paddingOf p exponent decimals) '0' := rfl
  rw [hpadded,withoutLeadingZeros_digits,digitsValue_zeros]
  · rfl
  · intro c hc
    rcases List.mem_append.mp hc with hc | hc
    · exact p.digits_isDigit c hc
    · rw [(List.mem_replicate.mp hc).2]
      decide
  · simp [hp]

/-- The number of the digits with the zeros after them is an integer. -/
def FitsAt (p : Numeral) (exponent decimals : Int) : Prop :=
  0 ≤ decimals - p.places + exponent ∧
    p.digits.length + (decimals - p.places + exponent) < 2 ^ 63

instance (p : Numeral) (exponent decimals : Int) : Decidable (FitsAt p exponent decimals) :=
  inferInstanceAs (Decidable (_ ∧ _))

theorem paddingOf_eq {p : Numeral} {exponent decimals : Int} (hlength : p.digits.length < 2 ^ 63)
    (hexponent : -2 ^ 63 ≤ exponent ∧ exponent < 2 ^ 63)
    (hdecimals : 0 ≤ decimals ∧ decimals < 2 ^ 63) (hshift : 0 ≤ shiftOf p exponent decimals) :
    (paddingOf p exponent decimals : Int) =
      if FitsAt p exponent decimals then decimals - p.places + exponent else 0 := by
  have hplaces := p.places_le
  by_cases hfits : FitsAt p exponent decimals
  · rw [if_pos hfits]
    unfold FitsAt at hfits
    unfold paddingOf
    unfold shiftOf int64 at *
    omega
  · rw [if_neg hfits]
    unfold FitsAt at hfits
    unfold paddingOf
    unfold shiftOf int64 at *
    omega

theorem int64_range (x : Int) : -2 ^ 63 ≤ int64 x ∧ int64 x < 2 ^ 63 := by
  unfold int64
  omega

theorem intTryParse_range {source : Text} {e : Int} (h : intTryParse source = some e) :
    -2 ^ 63 ≤ e ∧ e < 2 ^ 63 := by
  simp only [intTryParse,Option.bind_eq_some_iff] at h
  obtain ⟨⟨base,n⟩,_,h⟩ := h
  simp only at h
  split at h
  · split at h
    · cases h
      omega
    · cases h
  · split at h
    · cases h
      omega
    · split at h
      · rw [← Option.some.inj h]
        exact int64_range n
      · cases h

theorem trimWhile_eq_self {isSpace : Char → Bool} {text : Text}
    (h : ∀ c ∈ text, isSpace c = false) : trimWhile isSpace text = text := by
  have hdrop : text.dropWhile isSpace = text := by
    cases text with
    | nil => rfl
    | cons c cs => simp [h c (by simp)]
  rw [trimWhile,hdrop,List.rdropWhile_eq_self_iff]
  intro hne
  simp [h _ (List.getLast_mem hne)]

theorem trim_eq_self {text : Text} (h : ∀ c ∈ text, isWhitespace c = false) : trim text = text :=
  trimWhile_eq_self h

theorem isWhitespace_digit {c : Char} (h : c.isDigit = true) : isWhitespace c = false := by
  have hall : ∀ n < 10, isWhitespace (Nat.digitChar n) = false := by decide
  obtain ⟨hlt,hchar⟩ := digitChar_of_isDigit h
  rw [← hchar]
  exact hall _ hlt

theorem literalMagnitude_digits {body : Text} (hne : body ≠ [])
    (hdigits : ∀ c ∈ body, c.isDigit = true) :
    literalMagnitude body = some (10,digitsValue body) := by
  have hnox : ∀ x : Char, x.isDigit = false → body.take 2 ≠ ['0',x] := by
    intro x hx heq
    have hmem : x ∈ body := List.mem_of_mem_take (by rw [heq]; simp)
    rw [hdigits x hmem] at hx
    cases hx
  rw [literalMagnitude,if_neg (by simp [hnox 'x' rfl,hnox 'X' rfl]),if_pos ⟨hne,hdigits⟩]

theorem intTryParse_signed {text : Text} {e e' : Int} (h : signedInteger text = some e)
    (hread : intTryParse (lower text) = some e') : e' = e := by
  obtain ⟨hne,hdigits,hvalue⟩ := signedInteger_some h
  have htext := text_splitSign text
  have hsign : ∀ c ∈ (splitSign text).1.text, c.toNat < 65 ∧ isWhitespace c = false := by
    cases (splitSign text).1 <;> decide
  have hchars : ∀ c ∈ text, c.toNat < 65 ∧ isWhitespace c = false := by
    intro c hc
    rw [← htext] at hc
    rcases List.mem_append.mp hc with hc | hc
    · exact hsign c hc
    · have hdigit : isMantissaChar c := .inl (hdigits c hc)
      exact ⟨hdigit.toNat_lt,isWhitespace_digit (hdigits c hc)⟩
  have hlower : lower text = text := by
    calc text.map Char.toLower
        = text.map id := List.map_congr_left fun c hc => toLower_self (hchars c hc).1
      _ = text := List.map_id text
  rw [hlower,intTryParse,trim_eq_self fun c hc => (hchars c hc).2] at hread
  simp only [literalMagnitude_digits hne hdigits,Option.bind_some] at hread
  rw [hvalue]
  split at hread
  · rename_i hminus
    split at hread
    · rw [← Option.some.inj hread,hminus]
      simp [Sign.factor]
    · cases hread
  · rename_i hsign
    have hfactor : (splitSign text).1.factor = 1 := factor_eq_one hsign
    split at hread
    · rw [← Option.some.inj hread,hfactor,Int.one_mul]
    · simp at hread

/-- The exponent as the parser reads it. -/
def parsedExponent (p : Numeral) : Option Int :=
  match p.exponent with
  | none => some 0
  | some exponent => intTryParse (lower exponent.text)

theorem exists_sign (text : Text) : ∃ sign rest, sign ≠ Sign.minus ∧ text = sign.text ++ rest ∧
    (if (lower text).head? = some '+' then (lower text).tail else lower text) = lower rest := by
  cases text with
  | nil => exact ⟨.unsigned,[],by decide,rfl,rfl⟩
  | cons c cs =>
    by_cases hplus : Char.toLower c = '+'
    · have hc : c = '+' := by
        rw [← hplus]
        exact (toLower_eq (by rw [hplus]; decide)).symm
      exact ⟨.plus,cs,by decide,by rw [hc]; rfl,by simp [lower,hplus]⟩
    · exact ⟨.unsigned,c :: cs,by decide,rfl,by simp [lower,hplus]⟩

theorem mantissaText_chars (p : Numeral) : ∀ c ∈ mantissaText p, isMantissaChar c := by
  intro c hc
  rcases List.mem_append.mp hc with hc | hc
  · exact .inl (p.wholeDigits c hc)
  · unfold Numeral.fractionText at hc
    cases hfraction : p.fraction with
    | none => simp [hfraction] at hc
    | some cs =>
      rw [hfraction] at hc
      rcases List.mem_cons.mp hc with hc | hc
      · exact .inr hc
      · exact .inl (p.fractionDigits cs hfraction c hc)

theorem decimalStringToBaseUnits_ok {value result : Text} {decimals : Int}
    (h : decimalStringToBaseUnits value decimals = .ok result) :
    ∃ (p : Numeral) (e : Int), p.text = trim value ∧ p.sign ≠ .minus ∧ p.digits ≠ [] ∧
      parsedExponent p = some e ∧ mantissaToBaseUnits (mantissaText p) e decimals = .ok result := by
  obtain ⟨sign,rest,hsign,htext,hnormalized⟩ := exists_sign (trim value)
  simp only [decimalStringToBaseUnits,hnormalized] at h
  split at h
  · cases h
  · split at h
    · rename_i mantissa hsplit
      have hrest := split_singleton hsplit
      split at h
      · cases h
      · obtain ⟨p,rfl,hexponent,hmantissa,hdigits⟩ := mantissaToBaseUnits_ok h sign none
        have hsame := lower_eq_mantissa (hrest.trans hmantissa.symm) (mantissaText_chars p)
        refine ⟨p,0,?_,hsign,hdigits,by simp [parsedExponent,hexponent],by rwa [hmantissa]⟩
        rw [text_eq,htext,hsame,Numeral.exponentText,hexponent,List.append_nil]
    · rename_i mantissa exponentText hsplit
      have hrest := split_pair hsplit
      split at h
      · cases h
      · split at h
        · cases h
        · rename_i e he
          obtain ⟨first,second,rfl,hfirst,hsecond⟩ := List.map_eq_append_iff.mp hrest
          obtain ⟨marker,text,rfl,hmarker,hexponentText⟩ := List.map_eq_cons_iff.mp hsecond
          obtain ⟨p,rfl,hexponent,hmantissa,hdigits⟩ := mantissaToBaseUnits_ok h sign
            (some ⟨marker,text,toLower_eq_e hmarker⟩)
          have hsame := lower_eq_mantissa (hfirst.trans hmantissa.symm) (mantissaText_chars p)
          refine ⟨p,e,?_,hsign,hdigits,?_,by rwa [hmantissa]⟩
          · rw [text_eq,htext,hsame,Numeral.exponentText,hexponent]
          · rw [parsedExponent,hexponent]
            rw [← hexponentText] at he
            exact he
    · cases h

/-- A numeral that the parser reads as what it denotes. -/
def ReadExactly (p : Numeral) (decimals : Nat) : Prop :=
  ∃ e, p.exponentValue = some e ∧ (p.mantissa = 0 ∨ FitsAt p e decimals)

theorem parsedExponent_eq {p : Numeral} {e e' : Int} (h : p.exponentValue = some e)
    (hparsed : parsedExponent p = some e') : e' = e := by
  unfold Numeral.exponentValue at h
  unfold parsedExponent at hparsed
  cases hexponent : p.exponent with
  | none =>
    rw [hexponent] at h hparsed
    cases h
    cases hparsed
    rfl
  | some exponent =>
    rw [hexponent] at h hparsed
    exact intTryParse_signed h hparsed

theorem parsedExponent_range {p : Numeral} {e : Int} (h : parsedExponent p = some e) :
    -2 ^ 63 ≤ e ∧ e < 2 ^ 63 := by
  unfold parsedExponent at h
  cases hexponent : p.exponent with
  | none =>
    rw [hexponent] at h
    cases h
    decide
  | some exponent =>
    rw [hexponent] at h
    exact intTryParse_range h

theorem length_trim_le (text : Text) : (trim text).length ≤ text.length := by
  have hleft := (List.dropWhile_suffix (l := text) isWhitespace).length_le
  exact (List.rdropWhile_prefix isWhitespace (l := text.dropWhile isWhitespace)).length_le.trans hleft

/-- The numeral of an accepted text, its exponent as the parser reads it, and the zeros that it puts
after the digits. -/
structure ParsedAs (value : Text) (decimals : Nat) (result : Text) (p : Numeral) (e : Int)
    (k : Nat) : Prop where
  text : p.text = trim value
  sign : p.sign ≠ .minus
  digits : p.digits ≠ []
  length : p.digits.length < 2 ^ 63
  exponent : parsedExponent p = some e
  result : result = Nat.toDigits 10 (p.mantissa * 10 ^ k)
  padding : (k : Int) = if FitsAt p e decimals then decimals - p.places + e else 0

theorem decimalStringToBaseUnits_parsed {value : DartString} {decimals : Nat}
    (hdecimals : decimals < 2 ^ 63) {result : Text}
    (h : decimalStringToBaseUnits value decimals = .ok result) :
    ∃ p e k, ParsedAs value decimals result p e k := by
  obtain ⟨p,e,htext,hsign,hdigits,hparsed,hrun⟩ := decimalStringToBaseUnits_ok h
  rw [mantissaToBaseUnits_numeral hdigits] at hrun
  split at hrun
  · rename_i hshift
    have hlength : p.digits.length < 2 ^ 63 := by
      have hle := p.length_digits_le
      rw [htext] at hle
      exact (hle.trans (length_trim_le _)).trans_lt value.2
    have hresult := Except.ok.inj hrun
    rw [padRight_digits hdigits] at hresult
    refine ⟨p,e,paddingOf p e decimals,htext,hsign,hdigits,hlength,hparsed,hresult.symm,?_⟩
    exact paddingOf_eq hlength (parsedExponent_range hparsed) (by omega) hshift
  · cases hrun

namespace ParsedAs

variable {value result : Text} {decimals : Nat} {p : Numeral} {e : Int} {k : Nat}

theorem padding_iff (h : ParsedAs value decimals result p e k) :
    (k : Int) = e - p.places + decimals ↔ FitsAt p e decimals := by
  have hpadding := h.padding
  have hlength := h.length
  by_cases hfits : FitsAt p e decimals
  · rw [if_pos hfits] at hpadding
    exact iff_of_true (by omega) hfits
  · rw [if_neg hfits] at hpadding
    apply iff_of_false _ hfits
    intro heq
    apply hfits
    unfold FitsAt
    omega

theorem value_eq (h : ParsedAs value decimals result p e k) {e' : Int}
    (he : p.exponentValue = some e') :
    p.value = some (p.mantissa * (10 : ℚ) ^ (e' - p.places : ℤ)) := by
  rw [Numeral.value,if_neg h.digits,he,factor_eq_one h.sign]
  simp

theorem result_iff (h : ParsedAs value decimals result p e k) {n : Nat} :
    result = Nat.toDigits 10 n ↔ n = p.mantissa * 10 ^ k := by
  rw [h.result]
  constructor
  · intro heq
    have hvalues := congrArg digitsValue heq
    rw [digitsValue_toDigits,digitsValue_toDigits] at hvalues
    exact hvalues.symm
  · rintro rfl
    rfl

theorem exact_iff (h : ParsedAs value decimals result p e k) :
    (∃ (v : ℚ) (n : Nat), Denotes (trim value) v ∧ result = Nat.toDigits 10 n ∧
      (n : ℚ) = v * 10 ^ decimals) ↔ ReadExactly p decimals := by
  constructor
  · rintro ⟨v,n,hdenotes,hresult,hn⟩
    rw [← h.text,denotes_iff] at hdenotes
    cases he : p.exponentValue with
    | none => simp [Numeral.value,h.digits,he] at hdenotes
    | some e' =>
      have hsame := parsedExponent_eq he h.exponent
      rw [h.value_eq he] at hdenotes
      rw [h.result_iff.mp hresult,← Option.some.inj hdenotes,cast_mul_pow_eq_iff,← hsame,
        h.padding_iff] at hn
      exact ⟨e,hsame ▸ he,hn⟩
  · rintro ⟨e',he,hfits⟩
    have hsame := parsedExponent_eq he h.exponent
    refine ⟨p.mantissa * (10 : ℚ) ^ (e' - p.places : ℤ),p.mantissa * 10 ^ k,?_,h.result,?_⟩
    · rw [← h.text,denotes_iff,h.value_eq he]
    · rw [cast_mul_pow_eq_iff,← hsame,h.padding_iff,hsame]
      exact hfits

end ParsedAs

end CoppiceWallet.Quotes

import CoppiceWallet.Quotes.BaseUnits
import Mathlib.Algebra.Order.Ring.Int

/-! # Shortened texts -/

namespace CoppiceWallet.Quotes

open CoppiceWallet.Lib CoppiceWallet.Store

def withoutZeros (text : Text) : Text := text.rdropWhile fun c => decide (c = '0')

theorem withoutZeros_append {first rest : Text} {c : Char} (hc : c ≠ '0') :
    withoutZeros (first ++ c :: rest) = first ++ c :: withoutZeros rest := by
  induction rest using List.reverseRecOn with
  | nil => simp [withoutZeros,hc]
  | append_singleton rest d ih =>
    have hassoc : first ++ c :: (rest ++ [d]) = (first ++ c :: rest) ++ [d] := by simp
    unfold withoutZeros at *
    rw [hassoc,List.rdropWhile_concat,List.rdropWhile_concat]
    split
    · exact ih
    · simp

theorem mem_withoutZeros {text : Text} {c : Char} (h : c ∈ withoutZeros text) : c ∈ text :=
  (List.rdropWhile_prefix _ _).subset h

def fractionWithoutZeros (fraction : Option Text) : Option Text :=
  fraction.bind fun cs => if withoutZeros cs = [] then none else some (withoutZeros cs)

theorem fractionWithoutZeros_digits {fraction : Option Text}
    (h : ∀ cs ∈ fraction, ∀ c ∈ cs, c.isDigit = true) :
    ∀ cs ∈ fractionWithoutZeros fraction, ∀ c ∈ cs, c.isDigit = true := by
  intro cs hcs c hc
  cases fraction with
  | none => cases hcs
  | some ds =>
    simp only [fractionWithoutZeros,Option.bind_some] at hcs
    split at hcs
    · cases hcs
    · cases hcs
      exact h ds rfl c (mem_withoutZeros hc)

/-- What shortening makes of a numeral. -/
def trimmed (p : Numeral) : Numeral :=
  match p.exponent with
  | none =>
    { p with
      fraction := fractionWithoutZeros p.fraction
      fractionDigits := fractionWithoutZeros_digits p.fractionDigits }
  | some exponent =>
    if p.fraction = none then p
    else { p with exponent := some { exponent with text := withoutZeros exponent.text } }

theorem trimmed_sign (p : Numeral) : (trimmed p).sign = p.sign := by
  unfold trimmed
  split
  · rfl
  · split <;> rfl

theorem trimmed_whole (p : Numeral) : (trimmed p).whole = p.whole := by
  unfold trimmed
  split
  · rfl
  · split <;> rfl

theorem trimmed_fraction (p : Numeral) : (trimmed p).fraction =
    if p.exponent = none then fractionWithoutZeros p.fraction else p.fraction := by
  unfold trimmed
  split
  · rename_i hnone
    rw [if_pos hnone]
  · rename_i hsome
    have hne : ¬ p.exponent = none := by simp [hsome]
    rw [if_neg hne]
    split <;> rfl

def exponentWithoutZeros (exponent : Exponent) : Exponent :=
  { exponent with text := withoutZeros exponent.text }

theorem trimmed_exponent (p : Numeral) : (trimmed p).exponent =
    if p.fraction = none then p.exponent else p.exponent.map exponentWithoutZeros := by
  unfold trimmed
  split
  · rename_i hnone
    simp [hnone]
  · rename_i hsome
    split
    · rfl
    · rw [hsome]
      rfl

theorem trimmed_digits (p : Numeral) :
    ∃ k, p.digits = (trimmed p).digits ++ List.replicate k '0' ∧
      p.places = (trimmed p).places + k ∧ (p.exponent ≠ none → k = 0) := by
  unfold Numeral.digits Numeral.places
  rw [trimmed_whole,trimmed_fraction]
  split
  · rename_i hnone
    cases p.fraction with
    | none => exact ⟨0,by simp [fractionWithoutZeros],rfl,by simp⟩
    | some cs =>
      obtain ⟨k,hzeros⟩ := exists_zeros cs
      have hfraction : (fractionWithoutZeros (some cs)).getD [] = withoutZeros cs := by
        simp only [fractionWithoutZeros,Option.bind_some]
        split
        · rename_i hnil
          exact hnil.symm
        · rfl
      refine ⟨k,?_,?_,fun hne => absurd hnone hne⟩
      · rw [hfraction,List.append_assoc]
        exact congrArg (p.whole ++ ·) hzeros
      · rw [hfraction]
        have hlength := congrArg List.length hzeros
        rwa [List.length_append,List.length_replicate] at hlength
  · exact ⟨0,by simp,rfl,by simp⟩

theorem mem_trim {text : Text} {c : Char} (hc : isWhitespace c = false) (h : c ∈ text) :
    c ∈ trim text := by
  have hdrop : c ∈ text.dropWhile isWhitespace := by
    rw [← List.takeWhile_append_dropWhile (p := isWhitespace) (l := text)] at h
    rcases List.mem_append.mp h with h | h
    · rw [List.mem_takeWhile_imp h] at hc
      cases hc
    · exact h
  rw [← List.rdropWhile_append_rtakeWhile (p := isWhitespace)
    (l := text.dropWhile isWhitespace)] at hdrop
  rcases List.mem_append.mp hdrop with h | h
  · exact h
  · rw [List.mem_rtakeWhile_imp h] at hc
    cases hc

theorem point_notMem_sign (sign : Sign) : '.' ∉ sign.text := by
  cases sign <;> decide

theorem point_notMem_of_intTryParse {source : Text} {e : Int} (h : intTryParse source = some e) :
    '.' ∉ source := by
  intro hmem
  have htrim := mem_trim (by decide) hmem
  rw [← text_splitSign (trim source)] at htrim
  have hbody : '.' ∈ (splitSign (trim source)).2 := by
    rcases List.mem_append.mp htrim with htrim | htrim
    · exact absurd htrim (point_notMem_sign _)
    · exact htrim
  simp only [intTryParse,Option.bind_eq_some_iff] at h
  obtain ⟨magnitude,hmagnitude,_⟩ := h
  unfold literalMagnitude at hmagnitude
  split at hmagnitude
  · rename_i hbase
    split at hmagnitude
    · rename_i hhex
      rw [← List.take_append_drop 2 (splitSign (trim source)).2] at hbody
      rcases List.mem_append.mp hbody with hbody | hbody
      · rcases hbase with hbase | hbase
        · rw [hbase] at hbody
          exact absurd hbody (by decide)
        · rw [hbase] at hbody
          exact absurd hbody (by decide)
      · exact absurd (hhex.2 '.' hbody) (by decide)
    · cases hmagnitude
  · split at hmagnitude
    · rename_i hdigits
      exact absurd (hdigits.2 '.' hbody) (by decide)
    · cases hmagnitude

theorem marker_ne (exponent : Exponent) : exponent.marker ≠ '.' ∧ exponent.marker ≠ '0' := by
  rcases exponent.isMarker with h | h <;> · rw [h]; decide

theorem getLast_ne {first last : Text} {c : Char} (hlast : last ≠ []) (hc : c ∉ last) :
    (first ++ last).getLast? ≠ some c := by
  intro heq
  rw [List.getLast?_append_of_ne_nil _ hlast] at heq
  exact hc (List.mem_of_getLast? heq)

variable {p : Numeral} {value : Text}

theorem swapTrimDecimal_pointless (htext : p.text = trim value) (hfraction : p.fraction = none)
    (hexponent : ∀ exponent ∈ p.exponent, '.' ∉ exponent.text) :
    swapTrimDecimal value = (trimmed p).text := by
  have hfraction' : (trimmed p).fraction = none := by
    rw [trimmed_fraction,hfraction]
    split <;> rfl
  have hexponent' : (trimmed p).exponentText = p.exponentText := by
    unfold Numeral.exponentText
    rw [trimmed_exponent,if_pos hfraction]
  have hleft : (trimmed p).text = p.text := by
    rw [Numeral.text,Numeral.text,trimmed_sign,trimmed_whole,hexponent',
      Numeral.fractionText_none hfraction',Numeral.fractionText_none hfraction]
  have hpoint : '.' ∉ p.exponentText := by
    unfold Numeral.exponentText
    split
    · exact List.not_mem_nil
    · rename_i exponent hsome
      intro hmem
      rcases List.mem_cons.mp hmem with hmarker | hmem
      · exact (marker_ne exponent).1 hmarker.symm
      · exact hexponent exponent hsome hmem
  have hvalue : '.' ∉ trim value := by
    rw [← htext,Numeral.text,Numeral.fractionText_none hfraction]
    simp [point_notMem_sign,point_notMem p.wholeDigits,hpoint]
  simp only [swapTrimDecimal]
  rw [if_pos hvalue,hleft,htext]

theorem swapTrimDecimal_point {left : Text} (hpoint : '.' ∈ trim value)
    (hleft : withoutZeros (trim value) = left) :
    swapTrimDecimal value = if left.getLast? = some '.' then left.dropLast else left := by
  subst hleft
  simp only [swapTrimDecimal]
  rw [if_neg (not_not_intro hpoint)]
  rfl

theorem swapTrimDecimal_plain (htext : p.text = trim value) {cs : Text}
    (hfraction : p.fraction = some cs) (hexponent : p.exponent = none) :
    swapTrimDecimal value = (trimmed p).text := by
  have hvalue : trim value = (p.sign.text ++ p.whole) ++ '.' :: cs := by
    rw [← htext,Numeral.text,Numeral.fractionText_some hfraction,Numeral.exponentText_none hexponent]
    simp
  have hleft : withoutZeros (trim value) = (p.sign.text ++ p.whole) ++ '.' :: withoutZeros cs := by
    rw [hvalue,withoutZeros_append (by decide)]
  have hexponent' : (trimmed p).exponent = none := by
    rw [trimmed_exponent,hexponent]
    split <;> rfl
  have hfraction' : (trimmed p).fraction = fractionWithoutZeros (some cs) := by
    rw [trimmed_fraction,if_pos hexponent,hfraction]
  rw [swapTrimDecimal_point (by rw [hvalue]; simp) hleft,Numeral.text,trimmed_sign,trimmed_whole,
    Numeral.exponentText_none hexponent',List.append_nil]
  simp only [fractionWithoutZeros,Option.bind_some] at hfraction'
  by_cases hnil : withoutZeros cs = []
  · rw [if_pos hnil] at hfraction'
    rw [Numeral.fractionText_none hfraction',hnil]
    simp
  · rw [if_neg hnil] at hfraction'
    have hdigits : '.' ∉ withoutZeros cs := fun hmem =>
      point_notMem (p.fractionDigits cs hfraction) (mem_withoutZeros hmem)
    have hlast : ((p.sign.text ++ p.whole) ++ '.' :: withoutZeros cs).getLast? ≠ some '.' := by
      rw [List.append_cons]
      exact getLast_ne hnil hdigits
    rw [Numeral.fractionText_some hfraction',if_neg hlast,List.append_assoc]

theorem swapTrimDecimal_exponent (htext : p.text = trim value) {cs : Text}
    (hfraction : p.fraction = some cs) {exponent : Exponent}
    (hexponent : p.exponent = some exponent) (hpoint : '.' ∉ exponent.text) :
    swapTrimDecimal value = (trimmed p).text := by
  have hvalue : trim value = (p.sign.text ++ (p.whole ++ '.' :: cs)) ++
      exponent.marker :: exponent.text := by
    rw [← htext,Numeral.text,Numeral.fractionText_some hfraction,
      Numeral.exponentText_some hexponent]
    simp
  have hmarker := marker_ne exponent
  have hleft : withoutZeros (trim value) = (p.sign.text ++ (p.whole ++ '.' :: cs)) ++
      exponent.marker :: withoutZeros exponent.text := by
    rw [hvalue,withoutZeros_append hmarker.2]
  have hfraction' : (trimmed p).fraction = some cs := by
    rw [trimmed_fraction,if_neg (by simp [hexponent]),hfraction]
  have hexponent' : (trimmed p).exponent = some (exponentWithoutZeros exponent) := by
    rw [trimmed_exponent,if_neg (by simp [hfraction]),hexponent]
    rfl
  rw [swapTrimDecimal_point (by rw [hvalue]; simp) hleft,Numeral.text,trimmed_sign,trimmed_whole,
    Numeral.fractionText_some hfraction',Numeral.exponentText_some hexponent',if_neg]
  · simp [exponentWithoutZeros]
  · apply getLast_ne (by simp)
    intro hmem
    rcases List.mem_cons.mp hmem with hmem | hmem
    · exact hmarker.1 hmem.symm
    · exact hpoint (mem_withoutZeros hmem)

theorem ParsedAs.swapTrimDecimal_eq {result : Text} {decimals : Nat} {e : Int} {k : Nat}
    (h : ParsedAs value decimals result p e k) : swapTrimDecimal value = (trimmed p).text := by
  have hpoint : ∀ exponent ∈ p.exponent, '.' ∉ exponent.text := by
    intro exponent hexponent hmem
    have hparsed := h.exponent
    rw [parsedExponent,hexponent] at hparsed
    exact point_notMem_of_intTryParse hparsed (List.mem_map_of_mem (f := Char.toLower) hmem)
  cases hfraction : p.fraction with
  | none => exact swapTrimDecimal_pointless h.text hfraction hpoint
  | some cs =>
    cases hexponent : p.exponent with
    | none => exact swapTrimDecimal_plain h.text hfraction hexponent
    | some exponent =>
      exact swapTrimDecimal_exponent h.text hfraction hexponent (hpoint exponent hexponent)

theorem trimmed_value (hsign : p.sign ≠ .minus) {v : ℚ} :
    (trimmed p).value = some v ↔ (trimmed p).digits ≠ [] ∧
      ∃ e, (trimmed p).exponentValue = some e ∧ v = p.mantissa * (10 : ℚ) ^ (e - p.places : ℤ) := by
  obtain ⟨k,hdigits,hplaces,_⟩ := trimmed_digits p
  have hmantissa : p.mantissa = (trimmed p).mantissa * 10 ^ k := by
    rw [Numeral.mantissa,hdigits,digitsValue_zeros]
    rfl
  have hvalue : ∀ e : Int, (p.mantissa : ℚ) * (10 : ℚ) ^ (e - p.places : ℤ) =
      (trimmed p).mantissa * (10 : ℚ) ^ (e - (trimmed p).places : ℤ) := by
    intro e
    have hexponent : (e - p.places : ℤ) + k = e - (trimmed p).places := by omega
    rw [← hexponent,zpow_add₀ (by norm_num),zpow_natCast,hmantissa]
    push_cast
    ring
  rw [Numeral.value,trimmed_sign,factor_eq_one hsign]
  by_cases hnil : (trimmed p).digits = []
  · simp [hnil]
  · rw [if_neg hnil,Option.map_eq_some_iff]
    simp only [hvalue,hnil,not_false_eq_true,true_and,Int.cast_one,one_mul,ne_eq]
    exact exists_congr fun e => and_congr_right fun _ => eq_comm

theorem getLast_withoutZeros (text : Text) : (withoutZeros text).getLast? ≠ some '0' := by
  intro hlast
  have hne : withoutZeros text ≠ [] := by
    intro hnil
    rw [hnil] at hlast
    cases hlast
  have hnot := List.rdropWhile_last_not (fun c => decide (c = '0')) text hne
  rw [List.getLast?_eq_some_getLast hne] at hlast
  exact hnot (decide_eq_true (Option.some.inj hlast))

theorem withoutZeros_eq_self {text : Text} :
    withoutZeros text = text ↔ text.getLast? ≠ some '0' := by
  constructor
  · intro hself
    rw [← hself]
    exact getLast_withoutZeros text
  · intro hlast
    apply List.rdropWhile_eq_self_iff.mpr
    intro hne hzero
    apply hlast
    rw [List.getLast?_eq_some_getLast hne,of_decide_eq_true hzero]

theorem withoutZeros_eq_nil {digits : Text} (hdigits : ∀ c ∈ digits, c.isDigit = true) :
    withoutZeros digits = [] ↔ digitsValue digits = 0 := by
  obtain ⟨k,hzeros⟩ := exists_zeros digits
  have hvalue : digitsValue digits = digitsValue (withoutZeros digits) * 10 ^ k := by
    rw [← digitsValue_zeros]
    exact congrArg digitsValue hzeros
  constructor
  · intro hnil
    rw [hvalue,hnil]
    simp [digitsValue]
  · intro hzero
    by_contra hne
    have hpos := digitsValue_pos (fun c hc => hdigits c (mem_withoutZeros hc)) hne
      (getLast_withoutZeros digits)
    rw [hvalue] at hzero
    exact absurd hzero (Nat.mul_pos hpos (Nat.pow_pos (by decide))).ne'

theorem trimmed_digits_ne_nil (hp : p.digits ≠ []) :
    (trimmed p).digits ≠ [] ↔ p.whole ≠ [] ∨ p.exponent ≠ none ∨ p.mantissa ≠ 0 := by
  by_cases hwhole : p.whole = []
  · by_cases hexponent : p.exponent = none
    · have hdigits : (trimmed p).digits = withoutZeros p.digits := by
        unfold Numeral.digits
        rw [trimmed_whole,hwhole,trimmed_fraction,if_pos hexponent]
        cases p.fraction with
        | none => rfl
        | some cs =>
          simp only [fractionWithoutZeros,Option.bind_some]
          split
          · rename_i hnil
            exact hnil.symm
          · rfl
      rw [hdigits,Ne,withoutZeros_eq_nil p.digits_isDigit]
      simp [hwhole,hexponent,Numeral.mantissa]
    · obtain ⟨k,hdigits,_,hk⟩ := trimmed_digits p
      rw [hk hexponent] at hdigits
      refine iff_of_true ?_ (.inr (.inl hexponent))
      intro hnil
      rw [hnil] at hdigits
      exact hp (by simpa using hdigits)
  · refine iff_of_true ?_ (.inl hwhole)
    intro hnil
    exact hwhole (by
      rw [← trimmed_whole p]
      exact (List.append_eq_nil_iff.mp hnil).1)

/-- Shortening takes the last zeros of the exponent. -/
def LosesExponentZeros (p : Numeral) : Prop :=
  p.fraction ≠ none ∧ ∃ exponent ∈ p.exponent, exponent.text.getLast? = some '0'

theorem trimmed_exponent_of_not_loses (h : ¬ LosesExponentZeros p) :
    (trimmed p).exponent = p.exponent := by
  rw [trimmed_exponent]
  split
  · rfl
  · rename_i hfraction
    cases hexponent : p.exponent with
    | none => rfl
    | some exponent =>
      have hlast : exponent.text.getLast? ≠ some '0' := fun hlast =>
        h ⟨hfraction,exponent,hexponent,hlast⟩
      rw [Option.map_some,exponentWithoutZeros,withoutZeros_eq_self.mpr hlast]

/-- If what is left of the exponent is an integer, so is the exponent, and they are the same if and
only if nothing is lost. -/
theorem trimmed_exponentValue {e' : Int} (h : (trimmed p).exponentValue = some e') :
    ∃ e, p.exponentValue = some e ∧ (e' = e ↔ ¬ LosesExponentZeros p) := by
  by_cases hloses : LosesExponentZeros p
  · obtain ⟨hfraction,exponent,hexponent,hlast⟩ := hloses
    have hleft : signedInteger (withoutZeros exponent.text) = some e' := by
      rw [Numeral.exponentValue,trimmed_exponent,if_neg hfraction,hexponent] at h
      exact h
    obtain ⟨k,hzeros⟩ := exists_zeros exponent.text
    have hvalue : p.exponentValue = some (e' * 10 ^ k) := by
      rw [Numeral.exponentValue,hexponent]
      exact (congrArg signedInteger hzeros).trans (signedInteger_zeros hleft k)
    refine ⟨e' * 10 ^ k,hvalue,iff_of_false ?_ (not_not_intro ⟨hfraction,exponent,hexponent,hlast⟩)⟩
    intro heq
    have hne := signedInteger_ne_zero hleft (getLast_withoutZeros _)
    have hk : k ≠ 0 := by
      rintro rfl
      rw [List.replicate_zero,List.append_nil] at hzeros
      exact withoutZeros_eq_self.mp hzeros.symm hlast
    have hone : (10 : Int) ^ k = 1 := by
      apply Int.eq_of_mul_eq_mul_left hne
      rw [Int.mul_one]
      exact heq.symm
    have hlt : (1 : Int) < 10 ^ k := one_lt_pow₀ (by decide) hk
    omega
  · refine ⟨e',?_,iff_of_true rfl hloses⟩
    rw [Numeral.exponentValue,trimmed_exponent_of_not_loses hloses] at h
    exact h

/-- The shortened text of a numeral denotes the base units that the parser reads. Where the number of
the digits with their zeros is no integer the parser puts no zeros, and what is left of the exponent
has to make up for the places. -/
def ShownExactly (p : Numeral) (decimals : Nat) : Prop :=
  (p.whole ≠ [] ∨ p.exponent ≠ none ∨ p.mantissa ≠ 0) ∧
    ∃ e e', p.exponentValue = some e ∧ (trimmed p).exponentValue = some e' ∧
      (p.mantissa = 0 ∨ (FitsAt p e decimals ∧ ¬ LosesExponentZeros p) ∨
        (¬ FitsAt p e decimals ∧ e' = p.places - decimals))

theorem ParsedAs.padding_left_iff {result : Text} {decimals : Nat} {e e' : Int} {k : Nat}
    (h : ParsedAs value decimals result p e k) (hloses : e' = e ↔ ¬ LosesExponentZeros p) :
    (k : Int) = e' - p.places + decimals ↔ (FitsAt p e decimals ∧ ¬ LosesExponentZeros p) ∨
      (¬ FitsAt p e decimals ∧ e' = p.places - decimals) := by
  by_cases hfits : FitsAt p e decimals
  · have hk := h.padding_iff.mpr hfits
    have hsame : (k : Int) = e' - p.places + decimals ↔ e' = e := by omega
    rw [hsame,hloses]
    simp [hfits]
  · have hk := h.padding
    rw [if_neg hfits] at hk
    have hzero : (k : Int) = e' - p.places + decimals ↔ e' = p.places - decimals := by omega
    rw [hzero]
    simp [hfits]

theorem ParsedAs.shown_iff {result : Text} {decimals : Nat} {e : Int} {k n : Nat}
    (h : ParsedAs value decimals result p e k) (hn : result = Nat.toDigits 10 n) :
    Denotes (swapTrimDecimal value) (n / 10 ^ decimals) ↔ ShownExactly p decimals := by
  have hpow : (10 : ℚ) ^ decimals ≠ 0 := pow_ne_zero _ (by norm_num)
  have hexact : ∀ e' : Int, (n : ℚ) / 10 ^ decimals = p.mantissa * (10 : ℚ) ^ (e' - p.places : ℤ) ↔
      p.mantissa = 0 ∨ (k : Int) = e' - p.places + decimals := by
    intro e'
    rw [div_eq_iff hpow,h.result_iff.mp hn,cast_mul_pow_eq_iff]
  rw [h.swapTrimDecimal_eq,denotes_iff,trimmed_value h.sign,trimmed_digits_ne_nil h.digits]
  apply and_congr_right
  intro _
  constructor
  · rintro ⟨e',he',hvalue⟩
    obtain ⟨e'',he,hloses⟩ := trimmed_exponentValue he'
    cases parsedExponent_eq he h.exponent
    rw [hexact,h.padding_left_iff hloses] at hvalue
    exact ⟨e,e',he,he',hvalue⟩
  · rintro ⟨e'',e',he,he',hcases⟩
    cases parsedExponent_eq he h.exponent
    obtain ⟨e'',he'',hloses⟩ := trimmed_exponentValue he'
    cases he.symm.trans he''
    refine ⟨e',he',?_⟩
    rw [hexact,h.padding_left_iff hloses]
    exact hcases

end CoppiceWallet.Quotes

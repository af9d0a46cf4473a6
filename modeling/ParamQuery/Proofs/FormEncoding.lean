import ParamQuery.FormUrlencoded
import ParamQuery.Proofs.Utf8

/-!
# Reading a query string back

A list of pairs can be written as a query string in many ways: a character may stand for itself
or be escaped, a space may be `+`, empty pieces may be put in, the `=` before an empty text may
be left out and a question mark may stand in front. Every way of writing reads back as the list.
-/

namespace ParamQuery

namespace FormUrlencoded

/-- A number below sixteen as a digit of either case. -/
def IsHexDigit (n : Nat) (digit : Char) : Prop :=
  digit = n.digitChar ∨ digit = n.digitChar.toUpper

/-- Bytes as `%` and two digits each. -/
inductive Escapes : List UInt8 → List Char → Prop where
  | nil : Escapes [] []
  | cons {b : UInt8} {bytes : List UInt8} {high low : Char} {text : List Char}
      (hhigh : IsHexDigit (b.toNat / 16) high) (hlow : IsHexDigit (b.toNat % 16) low)
      (hrest : Escapes bytes text) : Escapes (b :: bytes) ('%' :: high :: low :: text)

/-- The characters that never stand for themselves, with those of `also`. -/
def reserved (also : List Char) : List Char := '&' :: '+' :: '%' :: also

/-- A text for the characters of a key or of its text. -/
inductive Spells (also : List Char) : List Char → List Char → Prop where
  | nil : Spells also [] []
  | itself {c : Char} {chars text : List Char} (hc : c ∉ reserved also)
      (hrest : Spells also chars text) : Spells also (c :: chars) (c :: text)
  | plus {chars text : List Char} (hrest : Spells also chars text) :
      Spells also (' ' :: chars) ('+' :: text)
  | escaped {c : Char} {chars escape text : List Char}
      (hc : Escapes (String.utf8EncodeChar c) escape) (hrest : Spells also chars text) :
      Spells also (c :: chars) (escape ++ text)

inductive SpellsPair : String × String → List Char → Prop where
  | cut {key text : String} {left right : List Char} (hkey : Spells ['='] key.toList left)
      (htext : Spells [] text.toList right) : SpellsPair (key, text) (left ++ '=' :: right)
  | bare {key : String} {left : List Char} (hne : key ≠ "") (hkey : Spells ['='] key.toList left) :
      SpellsPair (key, "") left

/-- One piece for each pair, and empty pieces anywhere. -/
inductive SpellsPieces : List (String × String) → List (List Char) → Prop where
  | nil : SpellsPieces [] []
  | empty {pairs : List (String × String)} {pieces : List (List Char)}
      (hrest : SpellsPieces pairs pieces) : SpellsPieces pairs ([] :: pieces)
  | pair {pair : String × String} {piece : List Char} {pairs : List (String × String)}
      {pieces : List (List Char)} (hpair : SpellsPair pair piece)
      (hrest : SpellsPieces pairs pieces) : SpellsPieces (pair :: pairs) (piece :: pieces)

/-- A first question mark is never part of what is written. -/
inductive SpellsQuery (pairs : List (String × String)) : List Char → Prop where
  | marked {pieces : List (List Char)} (h : SpellsPieces pairs pieces) :
      SpellsQuery pairs ('?' :: ['&'].intercalate pieces)
  | unmarked {pieces : List (List Char)} (h : SpellsPieces pairs pieces)
      (hfirst : (['&'].intercalate pieces).head? ≠ some '?') :
      SpellsQuery pairs (['&'].intercalate pieces)

lemma exists_escapes (encoded : List UInt8) : ∃ escape, Escapes encoded escape := by
  induction encoded with
  | nil => exact ⟨[], .nil⟩
  | cons b encoded ih =>
    obtain ⟨escape, hescape⟩ := ih
    exact ⟨_, .cons (.inl rfl) (.inl rfl) hescape⟩

lemma exists_spells (also chars : List Char) : ∃ text, Spells also chars text := by
  induction chars with
  | nil => exact ⟨[], .nil⟩
  | cons c chars ih =>
    obtain ⟨escape, hescape⟩ := exists_escapes (String.utf8EncodeChar c)
    obtain ⟨text, htext⟩ := ih
    exact ⟨escape ++ text, .escaped hescape htext⟩

/-- Every list of pairs can be written. -/
theorem exists_spellsQuery (entries : List (String × String)) :
    ∃ query : String, SpellsQuery entries query.toList := by
  have hpieces : ∃ pieces, SpellsPieces entries pieces := by
    induction entries with
    | nil => exact ⟨[], .nil⟩
    | cons entry rest ih =>
      obtain ⟨pieces, hrest⟩ := ih
      obtain ⟨left, hkey⟩ := exists_spells ['='] entry.1.toList
      obtain ⟨right, htext⟩ := exists_spells [] entry.2.toList
      exact ⟨_, .pair (.cut hkey htext) hrest⟩
  obtain ⟨pieces, hpieces⟩ := hpieces
  refine ⟨String.ofList ('?' :: ['&'].intercalate pieces), ?_⟩
  rw [String.toList_ofList]
  exact .marked hpieces

lemma hexValue?_of_isHexDigit {n : Nat} {digit : Char} (hn : n < 16) (h : IsHexDigit n digit) :
    Numeral.hexValue? digit = some n := by
  have hdigits : ∀ n < 16, Numeral.hexValue? n.digitChar = some n ∧
      Numeral.hexValue? n.digitChar.toUpper = some n := by decide
  rcases h with rfl | rfl
  · exact (hdigits n hn).1
  · exact (hdigits n hn).2

lemma bytes_cons_of_ne {c : Char} (rest : List Char) (hplus : c ≠ '+') (hpercent : c ≠ '%') :
    bytes (c :: rest) = String.utf8EncodeChar c ++ bytes rest := by
  rw [bytes]
  · exact hplus
  · intro high low more h
    exact absurd h hpercent

lemma bytes_escape_append {encoded : List UInt8} {escape : List Char} (rest : List Char)
    (h : Escapes encoded escape) : bytes (escape ++ rest) = encoded ++ bytes rest := by
  induction h with
  | nil => rfl
  | @cons b encoded high low text hhigh hlow hrest ih =>
    have hb : b.toNat < 256 := b.toNat_lt
    have hhighValue := hexValue?_of_isHexDigit (by omega) hhigh
    have hlowValue := hexValue?_of_isHexDigit (by omega) hlow
    have hbyte : UInt8.ofNat (16 * (b.toNat / 16) + b.toNat % 16) = b := by
      rw [Nat.div_add_mod, UInt8.ofNat_toNat]
    simp only [List.cons_append, bytes, hhighValue, hlowValue, hbyte, ih]

lemma bytes_of_spells {also chars text : List Char} (h : Spells also chars text) :
    bytes text = chars.flatMap String.utf8EncodeChar := by
  induction h with
  | nil => rfl
  | @itself c chars text hc hrest ih =>
    simp only [reserved, List.mem_cons, not_or] at hc
    rw [bytes_cons_of_ne _ hc.2.1 hc.2.2.1, ih, List.flatMap_cons]
  | plus hrest ih => rw [bytes, ih]; rfl
  | escaped hc hrest ih => rw [bytes_escape_append _ hc, ih, List.flatMap_cons]

theorem decode_of_spells {also text : List Char} {s : String} (h : Spells also s.toList text) :
    decode text = s := by
  rw [decode, bytes_of_spells h, Utf8.decode_encode, String.ofList_toList]

lemma not_mem_of_escapes {encoded : List UInt8} {escape : List Char} {x : Char}
    (h : Escapes encoded escape) (hhex : Numeral.hexValue? x = none) (hpercent : x ≠ '%') :
    x ∉ escape := by
  induction h with
  | nil => exact List.not_mem_nil
  | @cons b encoded high low text hhigh hlow hrest ih =>
    have hb : b.toNat < 256 := b.toNat_lt
    have hhighne : x ≠ high := by
      rintro rfl
      simp [hexValue?_of_isHexDigit (by omega) hhigh] at hhex
    have hlowne : x ≠ low := by
      rintro rfl
      simp [hexValue?_of_isHexDigit (by omega) hlow] at hhex
    simp only [List.mem_cons, not_or]
    exact ⟨hpercent, hhighne, hlowne, ih⟩

lemma not_mem_of_spells {also chars text : List Char} {x : Char} (h : Spells also chars text)
    (hx : x ∈ reserved also) (hhex : Numeral.hexValue? x = none) (hpercent : x ≠ '%')
    (hplus : x ≠ '+') : x ∉ text := by
  induction h with
  | nil => exact List.not_mem_nil
  | @itself c chars text hc hrest ih =>
    have hne : x ≠ c := by
      rintro rfl
      exact hc hx
    exact fun hmem => (List.mem_cons.mp hmem).elim hne ih
  | plus hrest ih => exact fun hmem => (List.mem_cons.mp hmem).elim hplus ih
  | escaped hc hrest ih =>
    intro hmem
    rcases List.mem_append.mp hmem with hescape | htext
    · exact not_mem_of_escapes hc hhex hpercent hescape
    · exact ih htext

lemma ampersand_not_mem_of_spells {also chars text : List Char} (h : Spells also chars text) :
    '&' ∉ text :=
  not_mem_of_spells h List.mem_cons_self (by decide) (by decide) (by decide)

lemma equals_not_mem_of_spells {chars text : List Char} (h : Spells ['='] chars text) :
    '=' ∉ text :=
  not_mem_of_spells h (by decide) (by decide) (by decide) (by decide)

theorem pair_of_spellsPair {entry : String × String} {piece : List Char}
    (h : SpellsPair entry piece) : pair piece = entry := by
  cases h with
  | @cut key text left right hkey htext =>
    have hcut : Text.cut '=' (left ++ '=' :: right) = some (left, right) :=
      Text.cut_eq_some_iff.mpr ⟨rfl, equals_not_mem_of_spells hkey⟩
    simp only [pair, hcut, decode_of_spells hkey, decode_of_spells htext]
  | @bare key left hne hkey =>
    have hcut : Text.cut '=' piece = none :=
      Text.cut_eq_none_iff.mpr (equals_not_mem_of_spells hkey)
    simp only [pair, hcut, decode_of_spells hkey]

lemma ne_nil_of_spellsPair {entry : String × String} {piece : List Char}
    (h : SpellsPair entry piece) : piece ≠ [] := by
  cases h with
  | cut hkey htext => simp
  | bare hne hkey =>
    rintro rfl
    exact hne (decode_of_spells hkey).symm

lemma ampersand_not_mem_of_spellsPair {entry : String × String} {piece : List Char}
    (h : SpellsPair entry piece) : '&' ∉ piece := by
  cases h with
  | cut hkey htext =>
    have hleft := ampersand_not_mem_of_spells hkey
    have hright := ampersand_not_mem_of_spells htext
    simp [hleft, hright]
  | bare hne hkey => exact ampersand_not_mem_of_spells hkey

lemma ampersand_not_mem_of_spellsPieces {entries : List (String × String)}
    {pieces : List (List Char)} (h : SpellsPieces entries pieces) :
    ∀ piece ∈ pieces, '&' ∉ piece := by
  induction h with
  | nil => exact fun _ hmem => absurd hmem List.not_mem_nil
  | empty hrest ih => exact List.forall_mem_cons.mpr ⟨List.not_mem_nil, ih⟩
  | pair hpair hrest ih =>
    exact List.forall_mem_cons.mpr ⟨ampersand_not_mem_of_spellsPair hpair, ih⟩

lemma map_pair_of_spellsPieces {entries : List (String × String)} {pieces : List (List Char)}
    (h : SpellsPieces entries pieces) :
    (pieces.filter fun piece => !piece.isEmpty).map pair = entries := by
  induction h with
  | nil => rfl
  | empty hrest ih => exact ih
  | pair hpair hrest ih =>
    have hkeep := ne_nil_of_spellsPair hpair
    rw [List.filter_cons_of_pos (by simpa using hkeep), List.map_cons, pair_of_spellsPair hpair, ih]

theorem pairs_intercalate {entries : List (String × String)} {pieces : List (List Char)}
    (h : SpellsPieces entries pieces) : pairs (['&'].intercalate pieces) = entries := by
  have hentries := map_pair_of_spellsPieces h
  cases pieces with
  | nil => exact hentries
  | cons first more =>
    rw [pairs, Text.pieces_intercalate first more (ampersand_not_mem_of_spellsPieces h), hentries]

lemma dropMark_of_head?_ne {text : List Char} (h : text.head? ≠ some '?') :
    dropMark text = text := by
  cases text with
  | nil => rfl
  | cons c rest =>
    rw [dropMark]
    rintro more hmore
    exact absurd (by rw [hmore]; rfl) h

end FormUrlencoded

open FormUrlencoded

/-- However a list of pairs is written as a query string, the parameters of the query string
are those of the list. -/
theorem Parameters.ofQueryString_eq_ofPairs {entries : List (String × String)} {query : String}
    (h : SpellsQuery entries query.toList) :
    Parameters.ofQueryString query = Parameters.ofPairs entries := by
  have hpairs : FormUrlencoded.pairs (dropMark query.toList) = entries := by
    generalize query.toList = text at h
    cases h with
    | marked h => exact pairs_intercalate h
    | unmarked h hfirst =>
      rw [dropMark_of_head?_ne hfirst]
      exact pairs_intercalate h
  rw [Parameters.ofQueryString, hpairs]

theorem Parameters.ofQueryString_eq_ofPairs_mixed :
    SpellsQuery [("é[]", "a b=😀"), ("", ""), ("?", "")]
        "?&%c3%A9[]=a+b=%F0%9f%98%80&=&&?".toList ∧
      Parameters.ofQueryString "?&%c3%A9[]=a+b=%F0%9f%98%80&=&&?" =
        Parameters.ofPairs [("é[]", "a b=😀"), ("", ""), ("?", "")] := by
  have hletter : Escapes (String.utf8EncodeChar 'é') ['%', 'c', '3', '%', 'A', '9'] :=
    .cons (.inl rfl) (.inl rfl) (.cons (.inr rfl) (.inl rfl) .nil)
  have hface : Escapes (String.utf8EncodeChar '😀')
      ['%', 'F', '0', '%', '9', 'f', '%', '9', '8', '%', '8', '0'] :=
    .cons (.inr rfl) (.inl rfl) (.cons (.inl rfl) (.inl rfl)
      (.cons (.inl rfl) (.inl rfl) (.cons (.inl rfl) (.inl rfl) .nil)))
  have hkey : Spells ['='] "é[]".toList "%c3%A9[]".toList :=
    .escaped hletter (.itself (by decide) (.itself (by decide) .nil))
  have htext : Spells [] "a b=😀".toList "a+b=%F0%9f%98%80".toList :=
    .itself (by decide) (.plus (.itself (by decide) (.itself (by decide) (.escaped hface .nil))))
  have hmark : Spells ['='] "?".toList "?".toList := .itself (by decide) .nil
  have hempty : SpellsPair ("", "") ['='] := @SpellsPair.cut "" "" [] [] .nil .nil
  have hpieces := SpellsPieces.empty (.pair (.cut hkey htext) (.pair hempty
    (.empty (.pair (.bare (by decide) hmark) .nil))))
  have hquery := SpellsQuery.marked hpieces
  exact ⟨hquery, ofQueryString_eq_ofPairs hquery⟩

end ParamQuery

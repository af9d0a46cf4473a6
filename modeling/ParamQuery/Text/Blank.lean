/-!
# Blank characters

The blanks are the characters with the Unicode property White_Space. Names, list items and
numerals are read between their outer blanks.
-/

namespace ParamQuery.Text

def isBlank (c : Char) : Bool :=
  let n := c.toNat
  (0x09 ≤ n && n ≤ 0x0D) || n == 0x20 || n == 0x85 || n == 0xA0 || n == 0x1680 ||
    (0x2000 ≤ n && n ≤ 0x200A) || n == 0x2028 || n == 0x2029 || n == 0x202F ||
    n == 0x205F || n == 0x3000

/-- The text without its leading and trailing blanks. -/
def trim (text : List Char) : List Char :=
  ((text.dropWhile isBlank).reverse.dropWhile isBlank).reverse

theorem not_isBlank_head_trim (text : List Char) (c : Char) (rest : List Char)
    (h : trim text = c :: rest) : isBlank c = false := by
  have hsuffix : (text.dropWhile isBlank).reverse.dropWhile isBlank <:+
      (text.dropWhile isBlank).reverse := List.dropWhile_suffix _
  have hprefix : trim text <+: text.dropWhile isBlank := by
    rw [trim, ← List.reverse_suffix, List.reverse_reverse]
    exact hsuffix
  rw [h] at hprefix
  obtain ⟨tail, htail⟩ := hprefix
  have hhead := List.head?_dropWhile_not isBlank text
  rw [← htail] at hhead
  simpa using hhead

theorem not_isBlank_getLast?_trim (text : List Char) :
    ∀ c ∈ (trim text).getLast?, isBlank c = false := by
  intro c hc
  rw [trim, List.getLast?_reverse] at hc
  have hhead := List.head?_dropWhile_not isBlank (text.dropWhile isBlank).reverse
  rw [Option.mem_def.mp hc] at hhead
  simpa using hhead

theorem trim_eq_self_of_ends {text : List Char}
    (hfirst : ∀ c ∈ text.head?, isBlank c = false)
    (hlast : ∀ c ∈ text.getLast?, isBlank c = false) : trim text = text := by
  have keep : ∀ l : List Char, (∀ c ∈ l.head?, isBlank c = false) → l.dropWhile isBlank = l := by
    intro l hl
    cases l with
    | nil => rfl
    | cons c rest => simp [hl c rfl]
  rw [trim, keep text hfirst, keep text.reverse, List.reverse_reverse]
  intro c hc
  exact hlast c (by simpa using hc)

theorem mem_of_mem_trim {text : List Char} {c : Char} (h : c ∈ trim text) : c ∈ text := by
  rw [trim, List.mem_reverse] at h
  have hkept : c ∈ text.dropWhile isBlank := List.mem_reverse.mp ((List.dropWhile_suffix _).mem h)
  exact (List.dropWhile_suffix _).mem hkept

theorem trim_trim (text : List Char) : trim (trim text) = trim text := by
  apply trim_eq_self_of_ends _ (not_isBlank_getLast?_trim text)
  intro c hc
  cases h : trim text with
  | nil => simp [h] at hc
  | cons first rest =>
    obtain rfl : first = c := by simpa [h] using hc
    exact not_isBlank_head_trim text first rest h

end ParamQuery.Text

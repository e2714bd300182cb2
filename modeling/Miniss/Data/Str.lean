import Mathlib

/-!
# Rust string operations on lists of characters

A `&str` of the Rust standard library is a sequence of characters stored as
UTF-8 bytes, and its indices are byte offsets. Here a string is a `List Char`,
and the operations a line-oriented parser uses are written as the standard
library documents them:

* `fromUtf8` decodes bytes and fails on every sequence that is not UTF-8;
  `utf8Bytes` encodes, and `fromUtf8_utf8Bytes` says the two are inverse; a
  byte below `0x80` in the bytes of a string is a character of the string
  (`cr_mem_of_mem_utf8Bytes`), since the bytes of a longer encoding all have
  their high bit set;
* `lines` splits at `\n`, drops one `\r` before it, and yields no final empty
  line; `linesFrom_append_crlf` reads one CRLF-terminated line off the front;
* `splitWhitespace` yields the maximal runs of characters that are not
  whitespace, `isWhitespace` being the Unicode `White_Space` property, and
  `trim` drops whitespace at both ends;
* `find` gives the byte offset of a character, and `sliceTo` and `sliceFrom`
  slice at a byte offset, `none` where the offset is not a character boundary
  or lies past the end, where Rust panics. `find_slices`: slicing at what
  `find` returned, or one character further, never panics.

The splitting functions carry the part of the current line or word read so
far, and their lemmas are proved by induction generalizing it.
-/

namespace Miniss

namespace Str

/-! ## Encoding -/

/-- `str::from_utf8`. -/
def fromUtf8 (data : List UInt8) : Option (List Char) :=
  data.toByteArray.utf8Decode?.map Array.toList

/-- The UTF-8 bytes of a string, `str::as_bytes`. -/
def utf8Bytes (s : List Char) : List UInt8 :=
  s.flatMap String.utf8EncodeChar

theorem fromUtf8_utf8Bytes (s : List Char) : fromUtf8 (utf8Bytes s) = some s := by
  have h : (utf8Bytes s).toByteArray = s.utf8Encode := rfl
  simp [fromUtf8, h]

@[simp] theorem utf8Bytes_append (s t : List Char) :
    utf8Bytes (s ++ t) = utf8Bytes s ++ utf8Bytes t :=
  List.flatMap_append

theorem utf8Bytes_ne_nil {s : List Char} (h : s ≠ []) : utf8Bytes s ≠ [] := by
  obtain ⟨c, t, rfl⟩ := List.exists_cons_of_ne_nil h
  simp [utf8Bytes, String.utf8EncodeChar_ne_nil]

theorem le_toNat_ofNat {n : Nat} (h : 128 ≤ n) (h' : n < 256) : 128 ≤ (UInt8.ofNat n).toNat := by
  rw [UInt8.toNat_ofNat', Nat.mod_eq_of_lt h']
  exact h

/-- A byte below `0x80` stands in the encoding of a character only as the
    whole encoding of that character. -/
theorem toNat_of_mem_utf8EncodeChar {c : Char} {b : UInt8} (hb : b ∈ String.utf8EncodeChar c)
    (hlt : b.toNat < 128) : c.toNat = b.toNat := by
  have hv : c.toNat = c.val.toNat := rfl
  unfold String.utf8EncodeChar at hb
  dsimp only at hb
  split_ifs at hb with h1 h2 h3
  · -- a one-byte encoding: the byte is the character's code
    rw [List.mem_singleton] at hb
    subst hb
    rw [UInt8.toNat_ofNat', Nat.mod_eq_of_lt (by omega), hv]
  all_goals
    -- every byte of a longer encoding has its high bit set
    exfalso
    simp only [List.mem_cons, List.not_mem_nil, or_false] at hb
    rcases hb with rfl | rfl | rfl | rfl <;>
      exact absurd hlt (Nat.not_lt.mpr (le_toNat_ofNat (by omega) (by omega)))

/-- The byte of a carriage return stands in the bytes of a string only where
    the string has one. -/
theorem cr_mem_of_mem_utf8Bytes {s : List Char} (h : (13 : UInt8) ∈ utf8Bytes s) : '\r' ∈ s := by
  obtain ⟨c, hc, hb⟩ := List.mem_flatMap.mp h
  have hcode : c.toNat = 13 := toNat_of_mem_utf8EncodeChar hb (by decide)
  have hcr : c = '\r' := Char.ext (UInt32.toNat_inj.mp hcode)
  exact hcr ▸ hc

/-! ## Lines -/

/-- A line without its line feed loses one carriage return at its end. -/
def stripCr (line : List Char) : List Char :=
  if line.getLast? = some '\r' then line.dropLast else line

/-- `str::lines`, with `acc` the part of the current line read so far. A last
    line with no line feed keeps a carriage return at its end. -/
def linesFrom (acc : List Char) : List Char → List (List Char)
  | [] => if acc = [] then [] else [acc]
  | c :: rest => if c = '\n' then stripCr acc :: linesFrom [] rest else linesFrom (acc ++ [c]) rest

/-- `str::lines`. -/
def lines (s : List Char) : List (List Char) :=
  linesFrom [] s

@[simp] theorem stripCr_append_cr (l : List Char) : stripCr (l ++ ['\r']) = l := by
  simp [stripCr]

/-- A line ended by CRLF, with no line feed in it, is read off as it is. -/
theorem linesFrom_append_crlf (acc : List Char) {l : List Char} (hl : '\n' ∉ l)
    (rest : List Char) :
    linesFrom acc (l ++ '\r' :: '\n' :: rest) = (acc ++ l) :: lines rest := by
  induction l generalizing acc with
  | nil => simp [linesFrom, lines]
  | cons c l ih =>
    have hc : c ≠ '\n' := fun h => hl (h ▸ List.mem_cons_self)
    rw [List.cons_append, linesFrom, if_neg hc, ih _ (fun h => hl (List.mem_cons_of_mem _ h))]
    simp

theorem lines_append_crlf {l : List Char} (hl : '\n' ∉ l) (rest : List Char) :
    lines (l ++ '\r' :: '\n' :: rest) = l :: lines rest :=
  linesFrom_append_crlf [] hl rest

theorem lines_crlf (rest : List Char) : lines ('\r' :: '\n' :: rest) = [] :: lines rest :=
  lines_append_crlf List.not_mem_nil rest

theorem linesFrom_ne_nil {acc s : List Char} (h : acc ≠ [] ∨ s ≠ []) : linesFrom acc s ≠ [] := by
  induction s generalizing acc with
  | nil =>
    have hacc : acc ≠ [] := h.resolve_right (fun h' => h' rfl)
    simp [linesFrom, hacc]
  | cons c s ih =>
    rw [linesFrom]
    split_ifs
    · exact List.cons_ne_nil _ _
    · exact ih (.inl (by simp))

/-- Joining the lines with `\n` gives the string back when it holds no CRLF and
    does not end with a line feed. -/
theorem intercalate_linesFrom (acc : List Char) {s : List Char}
    (hcrlf : ¬ ['\r', '\n'] <:+: acc ++ s) (hlast : s.getLast? ≠ some '\n') :
    List.intercalate ['\n'] (linesFrom acc s) = acc ++ s := by
  induction s generalizing acc with
  | nil =>
    rw [linesFrom]
    split_ifs with hacc
    · simp [hacc]
    · simp
  | cons c s ih =>
    -- the last character of `c :: s` is that of `s`, unless `s` is empty
    have hlast' : s.getLast? ≠ some '\n' := by
      cases s with
      | nil => simp
      | cons d s => simpa using hlast
    rw [linesFrom]
    split_ifs with hc
    · subst hc
      have hs : s ≠ [] := by
        rintro rfl
        simp at hlast
      -- a line ended by a line feed keeps its last character, which is no `\r`
      have hcr : acc.getLast? ≠ some '\r' := by
        intro h
        obtain ⟨ys, rfl⟩ := List.getLast?_eq_some_iff.mp h
        exact hcrlf ⟨ys, s, by simp⟩
      have htail : ¬ ['\r', '\n'] <:+: [] ++ s := fun h =>
        hcrlf (h.trans ⟨acc ++ ['\n'], [], by simp⟩)
      rw [stripCr, if_neg hcr, List.intercalate_cons_of_ne_nil (linesFrom_ne_nil (.inr hs)),
        ih [] htail hlast']
      simp
    · rw [ih (acc ++ [c]) (by simpa using hcrlf) hlast']
      simp

theorem intercalate_lines {s : List Char} (hcrlf : ¬ ['\r', '\n'] <:+: s)
    (hlast : s.getLast? ≠ some '\n') : List.intercalate ['\n'] (lines s) = s :=
  intercalate_linesFrom [] hcrlf hlast

/-! ## Whitespace -/

/-- `char::is_whitespace`: the Unicode `White_Space` property. -/
def isWhitespace (c : Char) : Bool :=
  let n := c.toNat
  (0x09 ≤ n && n ≤ 0x0D) || n == 0x20 || n == 0x85 || n == 0xA0 || n == 0x1680 ||
    (0x2000 ≤ n && n ≤ 0x200A) || n == 0x2028 || n == 0x2029 || n == 0x202F ||
    n == 0x205F || n == 0x3000

theorem isWhitespace_of_isDigit {c : Char} (h : c.isDigit = true) : isWhitespace c = false := by
  have hc : c.toNat = c.val.toNat := rfl
  simp only [Char.isDigit, Bool.and_eq_true, decide_eq_true_eq, UInt32.le_iff_toNat_le] at h
  have h0 : '0'.val.toNat = 48 := rfl
  have h9 : '9'.val.toNat = 57 := rfl
  rw [h0, h9] at h
  simp only [isWhitespace, hc, Bool.or_eq_false_iff, Bool.and_eq_false_iff, decide_eq_false_iff_not,
    beq_eq_false_iff_ne]
  omega

/-- No character of the string is whitespace. -/
def NoWhitespace (s : List Char) : Prop :=
  ∀ c ∈ s, isWhitespace c = false

-- by the list, not by the instance that runs through every character
instance (s : List Char) : Decidable (NoWhitespace s) :=
  List.decidableBAll _ s

theorem not_mem_of_noWhitespace {s : List Char} (hs : NoWhitespace s) {c : Char}
    (hc : isWhitespace c = true) : c ∉ s := fun hm => by
  simp [hs c hm] at hc

/-- `str::split_whitespace`, with `acc` the part of the current word read so far. -/
def splitWhitespaceFrom (acc : List Char) : List Char → List (List Char)
  | [] => if acc = [] then [] else [acc]
  | c :: rest =>
    if isWhitespace c then
      if acc = [] then splitWhitespaceFrom [] rest else acc :: splitWhitespaceFrom [] rest
    else splitWhitespaceFrom (acc ++ [c]) rest

/-- `str::split_whitespace`. -/
def splitWhitespace (s : List Char) : List (List Char) :=
  splitWhitespaceFrom [] s

theorem splitWhitespaceFrom_append (acc : List Char) {w : List Char} (hw : NoWhitespace w)
    (rest : List Char) :
    splitWhitespaceFrom acc (w ++ rest) = splitWhitespaceFrom (acc ++ w) rest := by
  induction w generalizing acc with
  | nil => simp
  | cons c w ih =>
    have hc : isWhitespace c = false := hw c List.mem_cons_self
    rw [List.cons_append, splitWhitespaceFrom, if_neg (by simp [hc]),
      ih _ (fun d hd => hw d (List.mem_cons_of_mem _ hd))]
    simp

/-- A word followed by whitespace is split off the front. -/
theorem splitWhitespace_append_cons {w : List Char} (hne : w ≠ []) (hw : NoWhitespace w)
    {c : Char} (hc : isWhitespace c = true) (rest : List Char) :
    splitWhitespace (w ++ c :: rest) = w :: splitWhitespace rest := by
  rw [splitWhitespace, splitWhitespaceFrom_append [] hw, List.nil_append, splitWhitespaceFrom,
    if_pos hc, if_neg hne]
  rfl

/-- A word alone is one part. -/
theorem splitWhitespace_of_noWhitespace {w : List Char} (hne : w ≠ []) (hw : NoWhitespace w) :
    splitWhitespace w = [w] := by
  have h := splitWhitespaceFrom_append [] hw []
  rw [List.append_nil, List.nil_append] at h
  rw [splitWhitespace, h, splitWhitespaceFrom, if_neg hne]

/-- `str::trim`. -/
def trim (s : List Char) : List Char :=
  ((s.dropWhile isWhitespace).reverse.dropWhile isWhitespace).reverse

/-- Neither end of the string is whitespace. -/
def Trimmed (s : List Char) : Prop :=
  (∀ c ∈ s.head?, isWhitespace c = false) ∧ ∀ c ∈ s.getLast?, isWhitespace c = false

instance (s : List Char) : Decidable (Trimmed s) :=
  @instDecidableAnd _ _ (Option.decidableForallMem s.head?) (Option.decidableForallMem s.getLast?)

theorem dropWhile_isWhitespace_of_head {s : List Char}
    (h : ∀ c ∈ s.head?, isWhitespace c = false) : s.dropWhile isWhitespace = s := by
  cases s with
  | nil => rfl
  | cons c s => simp [h c rfl]

theorem trim_of_trimmed {s : List Char} (h : Trimmed s) : trim s = s := by
  have h₂ : ∀ c ∈ s.reverse.head?, isWhitespace c = false := by
    rw [List.head?_reverse]
    exact h.2
  rw [trim, dropWhile_isWhitespace_of_head h.1, dropWhile_isWhitespace_of_head h₂,
    List.reverse_reverse]

/-- Whitespace in front of a trimmed string is dropped. -/
theorem trim_cons_of_trimmed {c : Char} (hc : isWhitespace c = true) {s : List Char}
    (h : Trimmed s) : trim (c :: s) = s := by
  rw [trim, List.dropWhile_cons_of_pos hc, ← trim]
  exact trim_of_trimmed h

/-! ## Byte offsets -/

/-- The number of UTF-8 bytes of a string, `str::len`. -/
def byteLen (s : List Char) : Nat :=
  (s.map Char.utf8Size).sum

@[simp] theorem byteLen_nil : byteLen [] = 0 := rfl

@[simp] theorem byteLen_cons (c : Char) (s : List Char) :
    byteLen (c :: s) = c.utf8Size + byteLen s := by
  simp [byteLen]

@[simp] theorem byteLen_append (s t : List Char) :
    byteLen (s ++ t) = byteLen s + byteLen t := by
  simp [byteLen]

/-- `str::find` of a character: the byte offset of its first occurrence. -/
def find (c : Char) : List Char → Option Nat
  | [] => none
  | d :: s => if d = c then some 0 else (find c s).map (d.utf8Size + ·)

/-- `&s[..i]`: `none` where `i` is not a character boundary or lies past the end. -/
def sliceTo : List Char → Nat → Option (List Char)
  | _, 0 => some []
  | [], _ + 1 => none
  | c :: s, i + 1 =>
    if c.utf8Size ≤ i + 1 then (sliceTo s (i + 1 - c.utf8Size)).map (c :: ·) else none

/-- `&s[i..]`: `none` where `i` is not a character boundary or lies past the end. -/
def sliceFrom : List Char → Nat → Option (List Char)
  | s, 0 => some s
  | [], _ + 1 => none
  | c :: s, i + 1 => if c.utf8Size ≤ i + 1 then sliceFrom s (i + 1 - c.utf8Size) else none

/-- What `find` returns is the byte length of what stands before the first
    occurrence. -/
theorem find_eq_some {c : Char} {s : List Char} {i : Nat} (h : find c s = some i) :
    ∃ pre post, s = pre ++ c :: post ∧ c ∉ pre ∧ i = byteLen pre := by
  induction s generalizing i with
  | nil => simp [find] at h
  | cons d s ih =>
    rw [find] at h
    split_ifs at h with hd
    · obtain rfl := Option.some.inj h
      exact ⟨[], s, by rw [hd]; rfl, List.not_mem_nil, rfl⟩
    · obtain ⟨j, hj, rfl⟩ := Option.map_eq_some_iff.mp h
      obtain ⟨pre, post, rfl, hc, rfl⟩ := ih hj
      exact ⟨d :: pre, post, rfl, by simp [Ne.symm hd, hc], by simp⟩

theorem find_append_cons {c : Char} {pre : List Char} (h : c ∉ pre) (post : List Char) :
    find c (pre ++ c :: post) = some (byteLen pre) := by
  induction pre with
  | nil => simp [find]
  | cons d pre ih =>
    have hd : d ≠ c := fun e => h (e ▸ List.mem_cons_self)
    rw [List.cons_append, find, if_neg hd, ih (fun hm => h (List.mem_cons_of_mem _ hm))]
    simp

/-- A string that starts with `c` is at least one byte long, and `c` takes the
    bytes of its first step: the shape the recursion of the slices needs. -/
theorem byteLen_cons_eq_succ (c : Char) (s : List Char) :
    ∃ k, byteLen (c :: s) = k + 1 ∧ c.utf8Size ≤ k + 1 ∧ k + 1 - c.utf8Size = byteLen s := by
  have hpos := c.utf8Size_pos
  refine ⟨c.utf8Size + byteLen s - 1, ?_, by omega, by omega⟩
  rw [byteLen_cons]
  omega

/-- The byte length of a string is a boundary of every string it begins. -/
theorem sliceTo_append (s t : List Char) : sliceTo (s ++ t) (byteLen s) = some s := by
  induction s with
  | nil => simp [sliceTo]
  | cons c s ih =>
    obtain ⟨k, hk, hle, hsub⟩ := byteLen_cons_eq_succ c s
    rw [List.cons_append, hk, sliceTo, if_pos hle, hsub, ih]
    rfl

theorem sliceFrom_append (s t : List Char) : sliceFrom (s ++ t) (byteLen s) = some t := by
  induction s with
  | nil => simp [sliceFrom]
  | cons c s ih =>
    obtain ⟨k, hk, hle, hsub⟩ := byteLen_cons_eq_succ c s
    rw [List.cons_append, hk, sliceFrom, if_pos hle, hsub, ih]

/-- The offset one character past a prefix is a boundary. -/
theorem sliceFrom_append_cons (s : List Char) (c : Char) (t : List Char) :
    sliceFrom (s ++ c :: t) (byteLen s + c.utf8Size) = some t := by
  have h := sliceFrom_append (s ++ [c]) t
  rwa [List.append_assoc, List.singleton_append, byteLen_append, byteLen_cons, byteLen_nil,
    Nat.add_zero] at h

/-- Slicing at the offset `find` returned, or one character further, never
    panics: the first slice is what stands before the character, the second
    what stands after it. -/
theorem find_slices {c : Char} {s : List Char} {i : Nat} (h : find c s = some i) :
    ∃ pre post, s = pre ++ c :: post ∧ c ∉ pre ∧
      sliceTo s i = some pre ∧ sliceFrom s (i + c.utf8Size) = some post := by
  obtain ⟨pre, post, rfl, hc, rfl⟩ := find_eq_some h
  exact ⟨pre, post, rfl, hc, sliceTo_append _ _, sliceFrom_append_cons _ _ _⟩

end Str

end Miniss

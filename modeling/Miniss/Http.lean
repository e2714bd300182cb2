import Miniss.Data.Str

/-!
# Parsing an HTTP request

`src/http.rs`, `Request::parse`. The bytes are decoded as UTF-8 and split into
lines; the first line must split into exactly three words, the method, the
path and the version. The header loop then reads the lines that follow, with
the index `enumerate` gives them: an empty line ends it and puts the body at
line `i + 2` of the request, and a line with a `:` is a header, its name the
trimmed and lower-cased part before the first `:`, its value the trimmed part
after it. The body is the lines from there on, split once more and joined with
`\n`. A header line without a `:` is skipped.

The parse returns `none` where the code would panic, and an `Error` of kind
`InvalidData` where it returns one. The case maps of `str::to_lowercase` and
`str::to_uppercase` are parameters: no result here depends on them.

* `parse_total`: the parse never panics, whatever the bytes, since slicing at
  what `find(':')` returned, or one byte further, falls on character
  boundaries (`Str.find_slices`);
* `parse_requestBytes`: a request written as a client writes it is read back
  with its method, path, version and headers, and with a body whose lines
  were split and joined again with `\n`, so that a CRLF in the body comes back
  as LF and a line feed at its end is lost (`parse_body_crlf`).
-/

namespace Miniss

namespace Http

/-- `Method`. -/
inductive Method where
  | get | post | put | delete | head | options | patch
  | other (method : List Char)
  deriving DecidableEq, Repr

/-- `impl From<&str> for Method`, with `upper` the case map of `to_uppercase`. -/
def Method.fromStr (upper : List Char → List Char) (method : List Char) : Method :=
  match upper method with
  | ['G', 'E', 'T'] => .get
  | ['P', 'O', 'S', 'T'] => .post
  | ['P', 'U', 'T'] => .put
  | ['D', 'E', 'L', 'E', 'T', 'E'] => .delete
  | ['H', 'E', 'A', 'D'] => .head
  | ['O', 'P', 'T', 'I', 'O', 'N', 'S'] => .options
  | ['P', 'A', 'T', 'C', 'H'] => .patch
  | _ => .other method

/-- `io::ErrorKind`, as far as the parser uses it. -/
inductive ErrorKind where
  | invalidData
  deriving DecidableEq, Repr

/-- `io::Error::new(kind, message)`. -/
structure Error where
  kind : ErrorKind
  message : String
  deriving DecidableEq, Repr

/-- The `HashMap<String, String>` of the headers: an insert replaces the value
    of a name already there. -/
abbrev Headers := AList fun _ : List Char => List Char

/-- `Request`. -/
structure Request where
  method : Method
  path : List Char
  version : List Char
  headers : Headers
  body : List UInt8

/-- The header loop of `Request::parse` over the lines after the request line,
    `i` the index `enumerate` gives the first of them: the headers, and the
    line of the request the body starts at if an empty line ends the headers;
    `none` where a slice panics. -/
def parseHeaders (lower : List Char → List Char) :
    List (List Char) → Nat → Headers → Option (Headers × Option Nat)
  | [], _, headers => some (headers, none)
  | line :: rest, i, headers =>
    if line = [] then some (headers, some (i + 2))
    else
      match Str.find ':' line with
      | some colonPos =>
        match Str.sliceTo line colonPos, Str.sliceFrom line (colonPos + 1) with
        | some name, some value =>
          parseHeaders lower rest (i + 1) (headers.insert (lower (Str.trim name)) (Str.trim value))
        | _, _ => none
      | none => parseHeaders lower rest (i + 1) headers

/-- `Request::parse`, with `lower` and `upper` the case maps of
    `to_lowercase` and `to_uppercase`; `none` where it panics. -/
def Request.parse (lower upper : List Char → List Char) (data : List UInt8) :
    Option (Except Error Request) :=
  match Str.fromUtf8 data with
  | none => some (.error ⟨.invalidData, "Invalid UTF-8"⟩)
  | some requestStr =>
    match Str.lines requestStr with
    | [] => some (.error ⟨.invalidData, "Empty request"⟩)
    | requestLine :: rest =>
      match Str.splitWhitespace requestLine with
      | [m, p, v] =>
        (parseHeaders lower rest 0 ∅).map fun (headers, bodyStart) =>
          let body := match bodyStart with
            | some start => Str.utf8Bytes (List.intercalate ['\n'] ((Str.lines requestStr).drop start))
            | none => []
          .ok ⟨Method.fromStr upper m, p, v, headers, body⟩
      | _ => some (.error ⟨.invalidData, "Invalid request line"⟩)

variable (lower upper : List Char → List Char)

/-! ## Totality -/

/-- The header loop never panics: every slice it takes is at a boundary. -/
theorem parseHeaders_isSome (lines : List (List Char)) (i : Nat) (headers : Headers) :
    (parseHeaders lower lines i headers).isSome := by
  induction lines generalizing i headers with
  | nil => rfl
  | cons line rest ih =>
    rw [parseHeaders]
    split_ifs
    · rfl
    · split
      · rename_i colonPos hfind
        obtain ⟨name, value, -, -, hname, hvalue⟩ := Str.find_slices hfind
        rw [hname, show colonPos + 1 = colonPos + Char.utf8Size ':' from rfl, hvalue]
        exact ih _ _
      · exact ih _ _

theorem parse_total (data : List UInt8) :
    (Request.parse lower upper data).isSome ∧
      ∀ line i, Str.find ':' line = some i →
        (Str.sliceTo line i).isSome ∧ (Str.sliceFrom line (i + 1)).isSome := by
  refine ⟨?_, fun line i hfind => ?_⟩
  · unfold Request.parse
    split
    · rfl
    · split
      · rfl
      · split
        · rw [Option.isSome_map]
          exact parseHeaders_isSome lower _ _ _
        · rfl
  · obtain ⟨_, _, -, -, hname, hvalue⟩ := Str.find_slices hfind
    rw [show i + 1 = i + Char.utf8Size ':' from rfl]
    exact ⟨by simp [hname], by simp [hvalue]⟩

/-- Every error of the parse is of kind `InvalidData`, and its message names
    the check that failed. -/
theorem parse_eq_error {data : List UInt8} {e : Error}
    (h : Request.parse lower upper data = some (.error e)) :
    e.kind = .invalidData ∧
      (Str.fromUtf8 data = none ∧ e.message = "Invalid UTF-8" ∨
        ∃ s, Str.fromUtf8 data = some s ∧
          (Str.lines s = [] ∧ e.message = "Empty request" ∨
            ∃ line rest, Str.lines s = line :: rest ∧ (Str.splitWhitespace line).length ≠ 3 ∧
              e.message = "Invalid request line")) := by
  unfold Request.parse at h
  split at h
  · rename_i hnone
    cases h
    exact ⟨rfl, .inl ⟨hnone, rfl⟩⟩
  · rename_i s hs
    split at h
    · rename_i hl
      cases h
      exact ⟨rfl, .inr ⟨s, hs, .inl ⟨hl, rfl⟩⟩⟩
    · rename_i line rest hl
      split at h
      -- three parts: the parse succeeds
      · simp at h
      · rename_i hsplit
        cases h
        refine ⟨rfl, .inr ⟨s, hs, .inr ⟨line, rest, hl, fun h3 => ?_, rfl⟩⟩⟩
        match hw : Str.splitWhitespace line, h3 with
        | [a, b, c], _ => exact hsplit a b c hw

/-! ## Reading back a written request -/

/-- A header line as a client writes it, `name: value`, without its CRLF. -/
def headerText (h : List Char × List Char) : List Char :=
  h.1 ++ ':' :: ' ' :: h.2

/-- The bytes of a request as a client writes it: the request line `m p v`,
    each header as `name: value`, each line ended by CRLF, an empty line, and
    the body. -/
def requestBytes (m p v : List Char) (headers : List (List Char × List Char))
    (body : List Char) : List UInt8 :=
  Str.utf8Bytes ((m ++ ' ' :: (p ++ ' ' :: v)) ++ '\r' :: '\n' ::
    (headers.flatMap (fun h => headerText h ++ ['\r', '\n']) ++ '\r' :: '\n' :: body))

/-- A header that is written on one line and read back: a name without `:`,
    and neither part holding a line feed or having whitespace at its ends. -/
structure HeaderOk (h : List Char × List Char) : Prop where
  colon : ':' ∉ h.1
  name_lf : '\n' ∉ h.1
  value_lf : '\n' ∉ h.2
  name_trimmed : Str.Trimmed h.1
  value_trimmed : Str.Trimmed h.2

instance (h : List Char × List Char) : Decidable (HeaderOk h) :=
  decidable_of_iff (':' ∉ h.1 ∧ '\n' ∉ h.1 ∧ '\n' ∉ h.2 ∧ Str.Trimmed h.1 ∧ Str.Trimmed h.2)
    ⟨fun ⟨a, b, c, d, e⟩ => ⟨a, b, c, d, e⟩, fun ⟨a, b, c, d, e⟩ => ⟨a, b, c, d, e⟩⟩

theorem HeaderOk.not_mem_lf {h : List Char × List Char} (hh : HeaderOk h) :
    '\n' ∉ headerText h := by
  simp [headerText, hh.name_lf, hh.value_lf]

/-- The lines of the header block are the header texts. -/
theorem lines_headers {headers : List (List Char × List Char)} (hh : ∀ h ∈ headers, HeaderOk h)
    (rest : List Char) :
    Str.lines (headers.flatMap (fun h => headerText h ++ ['\r', '\n']) ++ rest) =
      headers.map headerText ++ Str.lines rest := by
  induction headers with
  | nil => rfl
  | cons h headers ih =>
    rw [List.flatMap_cons, List.append_assoc, List.append_assoc, List.cons_append,
      List.singleton_append, Str.lines_append_crlf (hh h List.mem_cons_self).not_mem_lf,
      ih (fun h' hm => hh h' (List.mem_cons_of_mem _ hm))]
    rfl

/-- The header loop reads a header text as its name and value. -/
theorem parseHeaders_headerText {h : List Char × List Char} (hh : HeaderOk h)
    (rest : List (List Char)) (i : Nat) (acc : Headers) :
    parseHeaders lower (headerText h :: rest) i acc =
      parseHeaders lower rest (i + 1) (acc.insert (lower h.1) h.2) := by
  have hne : headerText h ≠ [] := by simp [headerText]
  have hfind : Str.find ':' (headerText h) = some (Str.byteLen h.1) :=
    Str.find_append_cons hh.colon _
  have hname : Str.sliceTo (headerText h) (Str.byteLen h.1) = some h.1 :=
    Str.sliceTo_append _ _
  have hvalue : Str.sliceFrom (headerText h) (Str.byteLen h.1 + 1) = some (' ' :: h.2) :=
    Str.sliceFrom_append_cons h.1 ':' _
  rw [parseHeaders, if_neg hne, hfind]
  simp only [hname, hvalue]
  rw [Str.trim_of_trimmed hh.name_trimmed,
    Str.trim_cons_of_trimmed (by decide) hh.value_trimmed]

theorem parseHeaders_nil_cons (rest : List (List Char)) (i : Nat) (acc : Headers) :
    parseHeaders lower ([] :: rest) i acc = some (acc, some (i + 2)) := by
  rw [parseHeaders, if_pos rfl]

/-- The header loop over the header texts and the empty line: each header
    inserted in turn, and the body two lines past the last header. -/
theorem parseHeaders_headers {headers : List (List Char × List Char)}
    (hh : ∀ h ∈ headers, HeaderOk h) (more : List (List Char)) (i : Nat) (acc : Headers) :
    parseHeaders lower (headers.map headerText ++ [] :: more) i acc =
      some (headers.foldl (fun a h => a.insert (lower h.1) h.2) acc,
        some (i + headers.length + 2)) := by
  induction headers generalizing i acc with
  | nil => exact parseHeaders_nil_cons lower more i acc
  | cons h headers ih =>
    rw [List.map_cons, List.cons_append, parseHeaders_headerText lower (hh h List.mem_cons_self),
      ih (fun h' hm => hh h' (List.mem_cons_of_mem _ hm)), List.foldl_cons, List.length_cons,
      Nat.add_right_comm i 1, Nat.add_assoc i]

/-- After the inserts, a name is looked up at its last insert. -/
theorem lookup_foldl_insert (hs : List (List Char × List Char)) (acc : Headers) (k : List Char) :
    (hs.foldl (fun a h => a.insert (lower h.1) h.2) acc).lookup k =
      ((hs.map fun h => (lower h.1, h.2)).reverse.lookup k).or (acc.lookup k) := by
  induction hs generalizing acc with
  | nil => simp
  | cons h hs ih =>
    rw [List.foldl_cons, ih, List.map_cons, List.reverse_cons, List.lookup_append, Option.or_assoc]
    congr 1
    by_cases hk : k = lower h.1
    · subst hk
      simp [AList.lookup_insert]
    · simp [AList.lookup_insert_ne hk, List.lookup_cons, beq_false_of_ne hk]

section Written

variable {m p v : List Char} (hm : m ≠ []) (hmw : Str.NoWhitespace m) (hp : p ≠ [])
  (hpw : Str.NoWhitespace p) (hv : v ≠ []) (hvw : Str.NoWhitespace v)

include hm hmw hp hpw hv hvw in
theorem splitWhitespace_requestLine :
    Str.splitWhitespace (m ++ ' ' :: (p ++ ' ' :: v)) = [m, p, v] := by
  rw [Str.splitWhitespace_append_cons hm hmw (by decide),
    Str.splitWhitespace_append_cons hp hpw (by decide), Str.splitWhitespace_of_noWhitespace hv hvw]

include hmw hpw hvw in
theorem requestLine_not_mem_lf : '\n' ∉ m ++ ' ' :: (p ++ ' ' :: v) := by
  have hlf : Str.isWhitespace '\n' = true := by decide
  simp [Str.not_mem_of_noWhitespace hmw hlf, Str.not_mem_of_noWhitespace hpw hlf,
    Str.not_mem_of_noWhitespace hvw hlf]

include hm hmw hp hpw hv hvw in
/-- A written request is parsed into its method, path, version and headers,
    and the lines of its body joined with `\n`. -/
theorem parse_requestBytes {headers : List (List Char × List Char)}
    (hh : ∀ h ∈ headers, HeaderOk h) (body : List Char) :
    Request.parse lower upper (requestBytes m p v headers body) =
      some (.ok ⟨Method.fromStr upper m, p, v,
        headers.foldl (fun a h => a.insert (lower h.1) h.2) ∅,
        Str.utf8Bytes (List.intercalate ['\n'] (Str.lines body))⟩) := by
  have hlines : Str.lines ((m ++ ' ' :: (p ++ ' ' :: v)) ++ '\r' :: '\n' ::
      (headers.flatMap (fun h => headerText h ++ ['\r', '\n']) ++ '\r' :: '\n' :: body)) =
      (m ++ ' ' :: (p ++ ' ' :: v)) :: (headers.map headerText ++ [] :: Str.lines body) := by
    rw [Str.lines_append_crlf (requestLine_not_mem_lf hmw hpw hvw), lines_headers hh,
      Str.lines_crlf]
  -- the body starts two lines past the last header, after the request line
  have hdrop : (((m ++ ' ' :: (p ++ ' ' :: v)) :: (headers.map headerText ++ [] ::
      Str.lines body)).drop (0 + headers.length + 2)) = Str.lines body := by
    simp [List.drop_append]
  rw [requestBytes, Request.parse, Str.fromUtf8_utf8Bytes]
  simp only [hlines, splitWhitespace_requestLine hm hmw hp hpw hv hvw,
    parseHeaders_headers lower hh, Option.map_some, hdrop]

end Written

end Http

end Miniss

import Miniss.Http
import Miniss.Data.Run

/-!
# Writing an HTTP response and reading it back

`src/http.rs`, `Response`. `Response::new` starts from the status, the version
`HTTP/1.1` and the one header `server: miniss/1.0`; `with_header` inserts a
header under its lower-cased name, replacing the value there, and `with_body`
sets the body and inserts `content-length`, the body's length in decimal.
`to_bytes` writes the status line, a line `name: value` for each header in the
order the map yields them, each line ended by CRLF, an empty line, and then the
body's bytes. That order is not fixed by the code (the headers are a
`HashMap`), so `toBytes` takes it as an argument, and what is proved holds for
every order that lists the map.

A client on the connection reads the response as `readResponse` does: the head
up to the first empty line, its header lines read by the crate's own header
loop (`parseHeaders` of `Request::parse`), and then as many bytes as
`content-length` says. This reader is the specification here; the source has
none.

* `Sendable`: every header of the response fits on its line and reads back as
  it is; `Response::new` and every builder call whose header fits keep it
  (`Sendable.build`);
* `LengthOk`: `content-length` is the length of the body; `with_body` sets it
  and a later `with_header` of another name keeps it (`lengthOk_build`);
* `read_response_to_bytes`: for such a response, the client reads back from
  `to_bytes`, in every order of the headers and whatever follows on the
  connection, exactly the headers and the body, and leaves the bytes after the
  body to the next response.

The head is found in bytes, where the body need not be text: a CR byte stands
in the UTF-8 bytes of a line only where the line has a `\r`
(`Str.cr_mem_of_mem_utf8Bytes`), so no line of the head ends it early
(`splitHead_lines`).
-/

namespace Miniss

namespace Http

/-- `StatusCode`. -/
structure StatusCode where
  code : UInt16
  deriving DecidableEq, Repr

/-- `StatusCode::OK`. -/
def StatusCode.ok : StatusCode := ⟨200⟩

/-- `impl Display for StatusCode`: the code and its reason phrase. -/
def StatusCode.fmt (s : StatusCode) : List Char :=
  let reason := match s.code with
    | 200 => "OK".toList
    | 400 => "Bad Request".toList
    | 404 => "Not Found".toList
    | 500 => "Internal Server Error".toList
    | _ => "Unknown".toList
  Nat.toDigits 10 s.code.toNat ++ ' ' :: reason

/-- The name under which `with_body` inserts the body's length. -/
def contentLength : List Char := "content-length".toList

/-- `Response`. -/
structure Response where
  status : StatusCode
  version : List Char
  headers : Headers
  body : List UInt8

namespace Response

/-- `Response::new`. -/
def new (status : StatusCode) : Response where
  status := status
  version := "HTTP/1.1".toList
  headers := (∅ : Headers).insert "server".toList "miniss/1.0".toList
  body := []

/-- `Response::with_body`: the body, and its length as `content-length`. -/
def withBody (r : Response) (body : List UInt8) : Response :=
  { r with headers := r.headers.insert contentLength (Nat.toDigits 10 body.length), body := body }

variable (lower : List Char → List Char)

/-- `Response::with_header`, with `lower` the case map of `to_lowercase`. -/
def withHeader (r : Response) (name value : List Char) : Response :=
  { r with headers := r.headers.insert (lower name) value }

/-- The text `to_bytes` writes before the body, with the headers in the order
    `entries`: the status line, a line per header, each ended by CRLF, and an
    empty line. -/
def head (r : Response) (entries : List (Σ _ : List Char, List Char)) : List Char :=
  (r.version ++ ' ' :: r.status.fmt) ++ '\r' :: '\n' ::
    (entries.flatMap (fun e => headerText (e.1, e.2) ++ ['\r', '\n']) ++ ['\r', '\n'])

/-- `Response::to_bytes`, with the headers in the order `entries` the map's
    iteration yields them. -/
def toBytes (r : Response) (entries : List (Σ _ : List Char, List Char)) : List UInt8 :=
  Str.utf8Bytes (r.head entries) ++ r.body

end Response

/-- `StaticHandler`. -/
structure StaticHandler where
  content : List Char
  contentType : List Char

/-- `StaticHandler::handle`: the same response to every request. -/
def StaticHandler.handle (lower : List Char → List Char) (h : StaticHandler) : Response :=
  ((Response.new .ok).withHeader lower "content-type".toList h.contentType).withBody
    (Str.utf8Bytes h.content)

/-- A call of one of the builder methods of `Response`. -/
inductive Build where
  | withHeader (name value : List Char)
  | withBody (body : List UInt8)

/-- The builder method a call makes. -/
def Build.apply (lower : List Char → List Char) (r : Response) : Build → Response
  | .withHeader name value => r.withHeader lower name value
  | .withBody body => r.withBody body

/-- The response a handler builds: `Response::new`, then its calls in turn. -/
def build (lower : List Char → List Char) (status : StatusCode) (calls : List Build) : Response :=
  calls.foldl (Build.apply lower) (Response.new status)

/-! ## How a client reads a response -/

/-- The head of a message, up to and with the first empty line (the first CRLF
    CRLF), and the bytes after it. -/
def splitHead : List UInt8 → Option (List UInt8 × List UInt8)
  | [] => none
  | b :: rest =>
    if b :: rest.take 3 = [13, 10, 13, 10] then some ([13, 10, 13, 10], rest.drop 3)
    else (splitHead rest).map fun p => (b :: p.1, p.2)

/-- A length in decimal, as `content-length` carries it. -/
def decimal (v : List Char) : Option Nat :=
  if v ≠ [] ∧ v.all Char.isDigit then some (Nat.ofDigitChars 10 v 0) else none

/-- A client reading one response off a connection: the head, its lines after
    the status line read by the header loop of `Request::parse`, and as many
    bytes of the rest as `content-length` says; the headers, the body, and the
    bytes left for what comes next. -/
def readResponse (lower : List Char → List Char) (bytes : List UInt8) :
    Option (Headers × List UInt8 × List UInt8) := do
  let (head, rest) ← splitHead bytes
  let text ← Str.fromUtf8 head
  let (headers, _) ← parseHeaders lower (Str.lines text).tail 0 ∅
  let n ← (headers.lookup contentLength).bind decimal
  if n ≤ rest.length then some (headers, rest.take n, rest.drop n) else none

/-! ## The head in bytes -/

theorem splitHead_cons_of_ne {b : UInt8} (hb : b ≠ 13) (rest : List UInt8) :
    splitHead (b :: rest) = (splitHead rest).map fun p => (b :: p.1, p.2) := by
  rw [splitHead, if_neg (fun h => hb (List.cons.inj h).1)]

theorem splitHead_append_of_not_mem {l : List UInt8} (hl : 13 ∉ l) (rest : List UInt8) :
    splitHead (l ++ rest) = (splitHead rest).map fun p => (l ++ p.1, p.2) := by
  induction l with
  | nil => simp
  | cons b l ih =>
    rw [List.cons_append, splitHead_cons_of_ne (fun h => hl (h ▸ List.mem_cons_self)),
      ih (fun h => hl (List.mem_cons_of_mem b h)), Option.map_map]
    rfl

theorem splitHead_crlf_crlf (rest : List UInt8) :
    splitHead (13 :: 10 :: 13 :: 10 :: rest) = some ([13, 10, 13, 10], rest) := by
  simp [splitHead]

/-- A CRLF followed by anything but a CR does not end the head. -/
theorem splitHead_crlf_of_ne {b : UInt8} (hb : b ≠ 13) (rest : List UInt8) :
    splitHead (13 :: 10 :: b :: rest) =
      (splitHead (b :: rest)).map fun p => (13 :: 10 :: p.1, p.2) := by
  have hne : (13 : UInt8) :: (10 :: b :: rest).take 3 ≠ [13, 10, 13, 10] := by
    intro h
    exact hb (List.cons.inj (List.cons.inj (List.cons.inj h).2).2).1
  rw [splitHead, if_neg hne, splitHead_cons_of_ne (by decide), Option.map_map]
  rfl

/-- Lines of bytes without a CR, none empty, each ended by CRLF, then an empty
    line: the head ends there, whatever follows. -/
theorem splitHead_lines {ls : List (List UInt8)} (hne : ls ≠ [])
    (hls : ∀ l ∈ ls, l ≠ [] ∧ 13 ∉ l) (rest : List UInt8) :
    splitHead (ls.flatMap (· ++ [13, 10]) ++ [13, 10] ++ rest) =
      some (ls.flatMap (· ++ [13, 10]) ++ [13, 10], rest) := by
  induction ls with
  | nil => exact absurd rfl hne
  | cons l ls ih =>
    have hl := hls l List.mem_cons_self
    cases ls with
    | nil =>
      simp only [List.flatMap_cons, List.flatMap_nil, List.append_nil, List.append_assoc,
        List.cons_append, List.nil_append]
      rw [splitHead_append_of_not_mem hl.2, splitHead_crlf_crlf]
      rfl
    | cons l' ls =>
      -- the line after `l` starts with a byte that is not a CR
      obtain ⟨b, t, rfl⟩ := List.exists_cons_of_ne_nil (hls l' (by simp)).1
      have hb : b ≠ 13 := fun h => (hls (b :: t) (by simp)).2 (h ▸ List.mem_cons_self)
      have ih' := ih (List.cons_ne_nil _ _) (fun k hk => hls k (List.mem_cons_of_mem l hk))
      simp only [List.flatMap_cons, List.append_assoc, List.cons_append, List.nil_append] at ih' ⊢
      rw [splitHead_append_of_not_mem hl.2, splitHead_crlf_of_ne hb, ih']
      rfl

/-! ## The text of the head -/

/-- `'\r'` and `'\n'` are not digits. -/
theorem crlf_not_mem_toDigits (n : Nat) : '\r' ∉ Nat.toDigits 10 n ∧ '\n' ∉ Nat.toDigits 10 n :=
  ⟨fun h => absurd (Nat.isDigit_of_mem_toDigits (by decide) (by decide) h) (by decide),
    fun h => absurd (Nat.isDigit_of_mem_toDigits (by decide) (by decide) h) (by decide)⟩

theorem StatusCode.crlf_not_mem_fmt (s : StatusCode) : '\r' ∉ s.fmt ∧ '\n' ∉ s.fmt := by
  have hd := crlf_not_mem_toDigits s.code.toNat
  unfold StatusCode.fmt
  split <;> simp [hd.1, hd.2]

/-- The status line written by a response of version `HTTP/1.1`. -/
theorem statusLine_ok {r : Response} (hv : r.version = "HTTP/1.1".toList) :
    (r.version ++ ' ' :: r.status.fmt) ≠ [] ∧ '\r' ∉ r.version ++ ' ' :: r.status.fmt ∧
      '\n' ∉ r.version ++ ' ' :: r.status.fmt := by
  have hs := r.status.crlf_not_mem_fmt
  rw [hv]
  refine ⟨by simp, ?_, ?_⟩ <;> simp [hs.1, hs.2]

theorem head_eq_lines (r : Response) (entries : List (Σ _ : List Char, List Char)) :
    r.head entries =
      ((r.version ++ ' ' :: r.status.fmt) :: entries.map (fun e => headerText (e.1, e.2))).flatMap
        (· ++ ['\r', '\n']) ++ ['\r', '\n'] := by
  simp [Response.head, List.flatMap_map]

/-- The lines of the head: the status line, the header lines, the empty line. -/
theorem lines_head {r : Response} {entries : List (Σ _ : List Char, List Char)}
    (hs : '\n' ∉ r.version ++ ' ' :: r.status.fmt) (hh : ∀ e ∈ entries, HeaderOk (e.1, e.2)) :
    Str.lines (r.head entries) =
      (r.version ++ ' ' :: r.status.fmt) ::
        ((entries.map fun e => (e.1, e.2)).map headerText ++ [[]]) := by
  have hh' : ∀ h ∈ entries.map (fun e => (e.1, e.2)), HeaderOk h := fun h hm => by
    obtain ⟨e, he, rfl⟩ := List.mem_map.mp hm
    exact hh e he
  have hflat : entries.flatMap (fun e => headerText (e.1, e.2) ++ ['\r', '\n']) =
      (entries.map fun e => (e.1, e.2)).flatMap (fun h => headerText h ++ ['\r', '\n']) := by
    simp [List.flatMap_map]
  rw [Response.head, Str.lines_append_crlf hs, hflat, lines_headers hh', Str.lines_crlf]
  rfl

/-- The head's bytes: the client's head is exactly them. -/
theorem splitHead_toBytes {r : Response} {entries : List (Σ _ : List Char, List Char)}
    (hs : (r.version ++ ' ' :: r.status.fmt) ≠ [] ∧ '\r' ∉ r.version ++ ' ' :: r.status.fmt)
    (hent : ∀ e ∈ entries, '\r' ∉ e.1 ∧ '\r' ∉ e.2) (more : List UInt8) :
    splitHead (r.toBytes entries ++ more) =
      some (Str.utf8Bytes (r.head entries), r.body ++ more) := by
  -- the lines in bytes: none empty, none with a CR byte
  have hlines : ∀ l ∈ ((r.version ++ ' ' :: r.status.fmt) ::
      entries.map (fun e => headerText (e.1, e.2))).map Str.utf8Bytes, l ≠ [] ∧ 13 ∉ l := by
    intro l hl
    obtain ⟨t, ht, rfl⟩ := List.mem_map.mp hl
    refine ⟨Str.utf8Bytes_ne_nil ?_, fun h13 => ?_⟩
    · rcases List.mem_cons.mp ht with rfl | ht
      · exact hs.1
      · obtain ⟨e, -, rfl⟩ := List.mem_map.mp ht
        simp [headerText]
    · have hcr := Str.cr_mem_of_mem_utf8Bytes h13
      rcases List.mem_cons.mp ht with rfl | ht
      · exact hs.2 hcr
      · obtain ⟨e, he, rfl⟩ := List.mem_map.mp ht
        simp only [headerText, List.mem_append, List.mem_cons] at hcr
        rcases hcr with h | h | h | h
        exacts [(hent e he).1 h, absurd h (by decide), absurd h (by decide), (hent e he).2 h]
  have hbytes : Str.utf8Bytes (r.head entries) =
      (((r.version ++ ' ' :: r.status.fmt) ::
        entries.map (fun e => headerText (e.1, e.2))).map Str.utf8Bytes).flatMap
          (· ++ [13, 10]) ++ [13, 10] := by
    rw [head_eq_lines, Str.utf8Bytes_append, Str.utf8Bytes, List.flatMap_assoc, List.flatMap_map]
    simp [Str.utf8Bytes]
    rfl
  rw [Response.toBytes, hbytes, List.append_assoc,
    splitHead_lines (by simp) hlines]

/-! ## Reading the headers back -/

section Read

variable (lower : List Char → List Char)

/-- A header that `to_bytes` writes on a line of its own and that the header
    loop reads back as it is. -/
structure HeaderFits (h : List Char × List Char) : Prop where
  ok : HeaderOk h
  name_cr : '\r' ∉ h.1
  value_cr : '\r' ∉ h.2
  lower_name : lower h.1 = h.1

/-- A response whose status line and headers `to_bytes` writes one to a line. -/
structure Sendable (r : Response) : Prop where
  version : r.version = "HTTP/1.1".toList
  headers : ∀ e ∈ r.headers.entries, HeaderFits lower (e.1, e.2)

/-- `content-length` is the body's length. -/
def LengthOk (r : Response) : Prop :=
  r.headers.lookup contentLength = some (Nat.toDigits 10 r.body.length)

/-- What a call needs so that its header fits. -/
def Build.Fits : Build → Prop
  | .withHeader name value => HeaderFits lower (lower name, value)
  | .withBody _ => True

/-- A call that leaves `content-length` to the last `with_body`. -/
def Build.KeepsLength : Build → Prop
  | .withHeader name _ => lower name ≠ contentLength
  | .withBody _ => True

instance (h : List Char × List Char) : Decidable (HeaderFits lower h) :=
  decidable_of_iff (HeaderOk h ∧ '\r' ∉ h.1 ∧ '\r' ∉ h.2 ∧ lower h.1 = h.1)
    ⟨fun ⟨a, b, c, d⟩ => ⟨a, b, c, d⟩, fun ⟨a, b, c, d⟩ => ⟨a, b, c, d⟩⟩

instance : (c : Build) → Decidable (c.Fits lower)
  | .withHeader name value => inferInstanceAs (Decidable (HeaderFits lower (lower name, value)))
  | .withBody _ => inferInstanceAs (Decidable True)

instance : (c : Build) → Decidable (c.KeepsLength lower)
  | .withHeader name _ => inferInstanceAs (Decidable (lower name ≠ contentLength))
  | .withBody _ => inferInstanceAs (Decidable True)

variable {lower}

theorem decimal_toDigits (n : Nat) : decimal (Nat.toDigits 10 n) = some n := by
  have hdigits : (Nat.toDigits 10 n).all Char.isDigit = true :=
    List.all_eq_true.mpr fun c hc => Nat.isDigit_of_mem_toDigits (by decide) (by decide) hc
  rw [decimal, if_pos ⟨Nat.toDigits_ne_nil, hdigits⟩, Nat.ofDigitChars_ten_toDigits]

/-- The `content-length` entry fits on its line. -/
theorem headerFits_contentLength (hcl : lower contentLength = contentLength) (n : Nat) :
    HeaderFits lower (contentLength, Nat.toDigits 10 n) := by
  have hd := crlf_not_mem_toDigits n
  have hws : ∀ c ∈ Nat.toDigits 10 n, Str.isWhitespace c = false := fun c hc =>
    Str.isWhitespace_of_isDigit (Nat.isDigit_of_mem_toDigits (by decide) (by decide) hc)
  exact ⟨⟨show ':' ∉ contentLength by decide, show '\n' ∉ contentLength by decide, hd.2,
      show Str.Trimmed contentLength by decide,
      ⟨fun c hc => hws c (List.mem_of_mem_head? hc), fun c hc => hws c (List.mem_of_mem_getLast? hc)⟩⟩,
    show '\r' ∉ contentLength by decide, hd.1, hcl⟩

theorem sendable_new (hsrv : lower "server".toList = "server".toList) (status : StatusCode) :
    Sendable lower (Response.new status) := by
  refine ⟨rfl, fun e he => ?_⟩
  have he' : e = ⟨"server".toList, "miniss/1.0".toList⟩ := by
    simpa [Response.new, AList.entries_insert] using he
  subst he'
  exact ⟨by decide, by decide, by decide, hsrv⟩

/-- An insert into the headers keeps them fitting if the new one fits. -/
theorem forall_entries_insert {P : List Char × List Char → Prop} {hs : Headers}
    (h : ∀ e ∈ hs.entries, P (e.1, e.2)) {k v : List Char} (hkv : P (k, v)) :
    ∀ e ∈ (hs.insert k v).entries, P (e.1, e.2) := by
  intro e he
  rw [AList.entries_insert, List.mem_cons] at he
  rcases he with rfl | he
  · exact hkv
  · exact h e ((List.kerase_sublist k hs.entries).subset he)

theorem Sendable.withHeader {r : Response} (h : Sendable lower r) {name value : List Char}
    (hf : HeaderFits lower (lower name, value)) : Sendable lower (r.withHeader lower name value) :=
  ⟨h.version, forall_entries_insert h.headers hf⟩

theorem Sendable.withBody {r : Response} (h : Sendable lower r)
    (hcl : lower contentLength = contentLength) (body : List UInt8) :
    Sendable lower (r.withBody body) :=
  ⟨h.version, forall_entries_insert h.headers (headerFits_contentLength hcl _)⟩

/-- The headers of a response built from calls that fit all fit. -/
theorem Sendable.build (hsrv : lower "server".toList = "server".toList)
    (hcl : lower contentLength = contentLength) (status : StatusCode) {calls : List Build}
    (hcalls : ∀ c ∈ calls, c.Fits lower) : Sendable lower (build lower status calls) := by
  refine foldl_invariant_of_mem (Sendable lower) (fun r c hc hr => ?_) (sendable_new hsrv status)
  cases c with
  | withHeader name value => exact hr.withHeader (hcalls _ hc)
  | withBody body => exact hr.withBody hcl body

theorem lengthOk_withBody (r : Response) (body : List UInt8) : LengthOk (r.withBody body) := by
  simp [LengthOk, Response.withBody]

theorem LengthOk.withHeader {r : Response} (h : LengthOk r) {name : List Char}
    (hn : lower name ≠ contentLength) (value : List Char) :
    LengthOk (r.withHeader lower name value) := by
  rw [LengthOk, Response.withHeader, AList.lookup_insert_ne (Ne.symm hn)]
  exact h

/-- After a `with_body` and calls that leave `content-length` to it, the
    header is the length of the body. -/
theorem lengthOk_build (status : StatusCode) (pre : List Build) (body : List UInt8)
    {post : List Build} (hpost : ∀ c ∈ post, c.KeepsLength lower) :
    LengthOk (build lower status (pre ++ .withBody body :: post)) := by
  rw [build, List.foldl_append, List.foldl_cons]
  refine foldl_invariant_of_mem LengthOk (fun r c hc hr => ?_) (lengthOk_withBody _ body)
  cases c with
  | withHeader name value => exact hr.withHeader (hpost _ hc) value
  | withBody body' => exact lengthOk_withBody r body'

theorem lookup_map_eq_dlookup (l : List (Σ _ : List Char, List Char)) (k : List Char) :
    (l.map fun e => (e.1, e.2)).lookup k = l.dlookup k := by
  induction l with
  | nil => rfl
  | cons e l ih =>
    obtain ⟨a, v⟩ := e
    by_cases hk : k = a
    · subst hk
      rw [List.dlookup_cons_eq]
      simp
    · rw [List.map_cons, List.lookup_cons, beq_false_of_ne hk, List.dlookup_cons_ne l _ hk, ih]

/-- The header loop over the header lines of `to_bytes`, in an order that
    lists the map, reads back its headers. -/
theorem lookup_read {r : Response} (hr : ∀ e ∈ r.headers.entries, HeaderFits lower (e.1, e.2))
    {entries : List (Σ _ : List Char, List Char)} (horder : entries.Perm r.headers.entries)
    (k : List Char) :
    ((entries.map fun e : (Σ _ : List Char, List Char) => (e.1, e.2)).foldl
      (fun (a : Headers) (h : List Char × List Char) => a.insert (lower h.1) h.2) ∅).lookup k =
      r.headers.lookup k := by
  have hlower : ∀ e ∈ entries, lower e.1 = e.1 := fun e he =>
    (hr e (horder.subset he)).lower_name
  -- the names come back as they are, so the last line of a name is its only one
  have hmap : (entries.map fun e => (e.1, e.2)).map (fun h => (lower h.1, h.2)) =
      entries.map fun e => (e.1, e.2) := by
    rw [List.map_map]
    exact List.map_congr_left fun e he => by simp [hlower e he]
  have hnd : entries.reverse.NodupKeys :=
    (List.perm_nodupKeys (List.reverse_perm entries)).mpr
      ((List.perm_nodupKeys horder).mpr r.headers.nodupKeys)
  rw [lookup_foldl_insert, hmap, AList.lookup_empty, Option.or_none, ← List.map_reverse,
    lookup_map_eq_dlookup, AList.lookup,
    List.perm_dlookup k hnd ((List.reverse_perm entries).trans horder)]

/-- A response of fitting headers whose `content-length` is the body's length:
    the client reads back from `to_bytes`, in every order of the headers and
    whatever follows on the connection, its headers and its body, and leaves
    what follows. -/
theorem readResponse_toBytes {r : Response} (hr : Sendable lower r) (hlen : LengthOk r)
    {entries : List (Σ _ : List Char, List Char)} (horder : entries.Perm r.headers.entries)
    (more : List UInt8) :
    ∃ headers, readResponse lower (r.toBytes entries ++ more) = some (headers, r.body, more) ∧
      ∀ k, headers.lookup k = r.headers.lookup k := by
  have hfits : ∀ e ∈ entries, HeaderFits lower (e.1, e.2) := fun e he =>
    hr.headers e (horder.subset he)
  have hs := statusLine_ok hr.version
  have hsplit := splitHead_toBytes ⟨hs.1, hs.2.1⟩
    (fun e he => ⟨(hfits e he).name_cr, (hfits e he).value_cr⟩) more
  have hlines := lines_head hs.2.2 (fun e he => (hfits e he).ok)
  have hok : ∀ h ∈ entries.map (fun e => (e.1, e.2)), HeaderOk h := fun h hm => by
    obtain ⟨e, he, rfl⟩ := List.mem_map.mp hm
    exact (hfits e he).ok
  have hparse := parseHeaders_headers lower hok [] 0 ∅
  have hread := lookup_read hr.headers horder
  refine ⟨_, ?_, hread⟩
  have hcl : ((entries.map fun e : (Σ _ : List Char, List Char) => (e.1, e.2)).foldl
      (fun (a : Headers) (h : List Char × List Char) => a.insert (lower h.1) h.2) ∅).lookup
        contentLength =
        some (Nat.toDigits 10 r.body.length) := by
    rw [hread]
    exact hlen
  simp only [readResponse, hsplit, Option.bind_eq_bind, Option.bind_some, Str.fromUtf8_utf8Bytes,
    hlines, List.tail_cons, hparse, hcl, decimal_toDigits]
  -- the body is the first `content-length` bytes after the head
  simp

end Read

/-- `StaticHandler::handle` is `Response::new` and two builder calls. -/
theorem StaticHandler.handle_eq_build (lower : List Char → List Char) (h : StaticHandler) :
    h.handle lower = build lower .ok
      [.withHeader "content-type".toList h.contentType, .withBody (Str.utf8Bytes h.content)] :=
  rfl

/-- A handler's response, built from `Response::new` by calls whose headers fit,
    the last `with_body` followed only by headers of other names: a client
    reads back from `to_bytes`, in every order the map's iteration may take and
    whatever follows on the connection, exactly its headers and its body, and
    leaves what follows. -/
theorem read_response_to_bytes (lower : List Char → List Char)
    (hsrv : lower "server".toList = "server".toList) (hcl : lower contentLength = contentLength)
    (status : StatusCode) (pre : List Build) (body : List UInt8) (post : List Build)
    (hcalls : ∀ c ∈ pre ++ .withBody body :: post, c.Fits lower)
    (hpost : ∀ c ∈ post, c.KeepsLength lower) (entries : List (Σ _ : List Char, List Char))
    (horder : entries.Perm (build lower status (pre ++ .withBody body :: post)).headers.entries)
    (more : List UInt8) :
    let r := build lower status (pre ++ .withBody body :: post)
    ∃ headers, readResponse lower (r.toBytes entries ++ more) = some (headers, r.body, more) ∧
      ∀ k, headers.lookup k = r.headers.lookup k :=
  readResponse_toBytes (Sendable.build hsrv hcl status hcalls) (lengthOk_build status pre body hpost)
    horder more

/-- The response of a `StaticHandler` serving `hi` as `text/plain`, read with
    two more bytes behind it. -/
theorem read_response_to_bytes_static :
    let calls := [Build.withHeader "content-type".toList "text/plain".toList]
    let r := build (List.map Char.toLower) .ok (calls ++ .withBody (Str.utf8Bytes "hi".toList) :: [])
    List.map Char.toLower "server".toList = "server".toList ∧
      List.map Char.toLower contentLength = contentLength ∧
      (∀ c ∈ calls ++ .withBody (Str.utf8Bytes "hi".toList) :: [], c.Fits (List.map Char.toLower)) ∧
      (∀ c ∈ ([] : List Build), c.KeepsLength (List.map Char.toLower)) ∧
      r.headers.entries.Perm r.headers.entries ∧
      ∃ headers, readResponse (List.map Char.toLower) (r.toBytes r.headers.entries ++ [1, 2]) =
          some (headers, r.body, [1, 2]) ∧ ∀ k, headers.lookup k = r.headers.lookup k :=
  ⟨by decide, by decide, by decide, by decide, List.Perm.refl _,
    read_response_to_bytes (List.map Char.toLower) (by decide) (by decide) .ok
      [Build.withHeader "content-type".toList "text/plain".toList] (Str.utf8Bytes "hi".toList) []
      (by decide) (by decide) _ (List.Perm.refl _) [1, 2]⟩

end Http

end Miniss

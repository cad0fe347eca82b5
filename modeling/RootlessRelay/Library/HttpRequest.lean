import Mathlib.Data.List.DropRight
import Mathlib.Data.List.TakeWhile

/-!
# HTTP/1.1 requests

What the bytes of a request mean: a request line, fields, and a body that is
framed by a length or by chunks. The codings of a message apart from the chunks
are left as they are.

`parse` is the meaning and not a server: it takes the head as a whole before it
looks at the framing, and gives nothing for a message whose framing is
contradictory. A server that reads from a socket has to agree with it on the
messages it accepts. The lemmas go the other way as well: a head that is written
from its parts is read back (`parse_write`), and the framing of a message is
decided by two fields (`framing_congr`), so that rewriting any other field
leaves the body where it was.
-/

namespace HttpRequest

/-- A name and its value, as bytes. -/
abbrev Field := List UInt8 × List UInt8

/-- A request with its body decoded: chunks are put together, and what framed
them is gone. -/
structure Request where
  method : List UInt8
  target : List UInt8
  headers : List Field
  body : List UInt8
  deriving DecidableEq, Repr

/-- The line that ends at the first line end, and what is behind that. A
carriage return alone does not end it. -/
def takeLine : List UInt8 → Option (List UInt8 × List UInt8)
  | 13 :: 10 :: rest => some ([], rest)
  | b :: rest => (takeLine rest).map (Prod.map (List.cons b) id)
  | [] => none

/-- The lines up to an empty one, the first of them continuing `line`, and what
is behind. It recurs over the bytes, and `line` is what has been read of the
current line. -/
def takeHead (line : List UInt8) : List UInt8 → Option (List (List UInt8) × List UInt8)
  | 13 :: 10 :: rest =>
      if line = [] then some ([], rest) else (takeHead [] rest).map (Prod.map (List.cons line) id)
  | b :: rest => takeHead (line ++ [b]) rest
  | [] => none

/-- A decimal digit, as a byte. -/
def isDigit (b : UInt8) : Bool := 48 ≤ b ∧ b ≤ 57

/-- A letter, in either case. -/
def isAlpha (b : UInt8) : Bool := 65 ≤ b ∧ b ≤ 90 ∨ 97 ≤ b ∧ b ≤ 122

/-- The bytes of methods and of field names: letters, digits and some marks.
White space and the colon are not among them. -/
def isToken (b : UInt8) : Bool :=
  isDigit b ∨ isAlpha b ∨ b ∈ [33, 35, 36, 37, 38, 39, 42, 43, 45, 46, 94, 95, 96, 124, 126]

/-- A target has no line end and no zero. Spaces are kept out of it by the
request line. -/
def isTargetByte (b : UInt8) : Bool := b ∉ [0, 10, 13]

/-- The bytes of a field line: no control bytes but the tab, and anything above
ASCII. -/
def isFieldByte (b : UInt8) : Bool := b = 9 ∨ 32 ≤ b ∧ b ≠ 127

/-- The white space that may surround a value. -/
def isBlank (b : UInt8) : Bool := b = 32 ∨ b = 9

/-- Without the white space on both sides; in the middle it stays. -/
def trim (text : List UInt8) : List UInt8 := (text.dropWhile isBlank).rdropWhile isBlank

/-- `HTTP/1.` and a digit, for the minor version. -/
def version (minor : UInt8) : List UInt8 := [72, 84, 84, 80, 47, 49, 46, minor]

/-- What stands in front of the first `separator`, and what is behind it;
everything and nothing, if there is none. -/
def cut (separator : UInt8) (text : List UInt8) : List UInt8 × List UInt8 :=
  (text.takeWhile (· ≠ separator), (text.dropWhile (· ≠ separator)).tail)

/-- The method and the target of a request line, separated by single spaces. -/
def requestLine (line : List UInt8) : Option (List UInt8 × List UInt8) :=
  let method := (cut 32 line).1
  let target := (cut 32 (cut 32 line).2).1
  let protocol := (cut 32 (cut 32 line).2).2
  if method ≠ [] ∧ method.all isToken ∧ target ≠ [] ∧ target.all isTargetByte ∧
      protocol ∈ [version 49, version 48] then
    some (method, target)
  else none

/-- The name and the trimmed value of a field line. There is no white space in
front of the colon. -/
def fieldLine (line : List UInt8) : Option Field :=
  let name := (cut 58 line).1
  let value := (cut 58 line).2
  if 58 ∈ line ∧ name ≠ [] ∧ name.all isToken ∧ value.all isFieldByte then some (name, trim value)
  else none

/-- A byte in lower case. -/
def lower (b : UInt8) : UInt8 := if 65 ≤ b ∧ b ≤ 90 then b + 32 else b

/-- The field has a name, in whatever case; `name` is in lower case. Names are
compared in no other way. -/
def named (name : List UInt8) (field : Field) : Bool := field.1.map lower = name

/-- `transfer-encoding`, the field that announces chunks. -/
def transferEncoding : List UInt8 :=
  [116, 114, 97, 110, 115, 102, 101, 114, 45, 101, 110, 99, 111, 100, 105, 110, 103]

/-- `content-length`, the field that announces a length. -/
def contentLength : List UInt8 := [99, 111, 110, 116, 101, 110, 116, 45, 108, 101, 110, 103, 116, 104]

/-- How the end of a body is found: by a length, or by a chunk of size zero. -/
inductive Framing
  | length (n : Nat)
  | chunked
  deriving DecidableEq, Repr

/-- The number that digits write; signs and white space are not allowed in a
length. -/
def decimal (text : List UInt8) : Option Nat :=
  if text ≠ [] ∧ text.all isDigit then
    some (text.foldl (fun n b => 10 * n + (b.toNat - 48)) 0)
  else none

/-- The last of the codings is `chunked`. The ones in front of it are applied to
the data in the chunks. -/
def endsChunked (value : List UInt8) : Bool :=
  (trim ((value.splitOn 44).getLast?.getD [])).map lower = [99, 104, 117, 110, 107, 101, 100]

/-- How long the body is. Chunks are what the last coding has to be, a length is
given once and not with codings, and without either there is no body. -/
def framing (headers : List Field) : Option Framing :=
  match (headers.filter (named transferEncoding)).getLast? with
  | some coding =>
      if headers.any (named contentLength) = false ∧ endsChunked coding.2 then some .chunked
      else none
  | none =>
      match headers.filter (named contentLength) with
      | [] => some (.length 0)
      | [field] => (decimal field.2).map Framing.length
      | _ => none

/-- The value of a hexadecimal digit, in either case. -/
def hexValue (b : UInt8) : Option Nat :=
  if isDigit b then some (b.toNat - 48)
  else if 97 ≤ lower b ∧ lower b ≤ 102 then some ((lower b).toNat - 87)
  else none

/-- The size of a chunk; extensions are passed over, but there has to be a
digit. -/
def chunkSize (line : List UInt8) : Option Nat :=
  let digits := line.takeWhile fun b => (hexValue b).isSome
  let extension := line.drop digits.length
  if digits ≠ [] ∧ (extension.head?.all fun b => b = 59 ∨ isBlank b) then
    some (digits.foldl (fun n b => 16 * n + (hexValue b).getD 0) 0)
  else none

/-- The data of the chunks up to the last one, behind which a trailer section
ends. The fuel bounds the number of chunks; the length of the input is enough of
it. -/
def chunkedBody : Nat → List UInt8 → Option (List UInt8 × List UInt8)
  | 0, _ => none
  | fuel + 1, bytes => do
      let line ← takeLine bytes
      let size ← chunkSize line.1
      if size = 0 then do
        let trailer ← takeHead [] line.2
        some ([], trailer.2)
      else if (line.2.drop size).take 2 = [13, 10] then do
        let more ← chunkedBody fuel (line.2.drop (size + 2))
        some (line.2.take size ++ more.1, more.2)
      else none

/-- The body that a framing takes from a stream, and what is behind it. -/
def readBody : Framing → List UInt8 → Option (List UInt8 × List UInt8)
  | .length n, bytes => if bytes.length < n then none else some (bytes.take n, bytes.drop n)
  | .chunked, bytes => chunkedBody (bytes.length + 1) bytes

/-- The request that a stream starts with, and what is behind it: the next
request, if the connection is kept. -/
def parse (bytes : List UInt8) : Option (Request × List UInt8) := do
  let head ← takeHead [] bytes
  let line ← head.1.head?.bind requestLine
  let headers ← head.1.tail.mapM fieldLine
  let frame ← framing headers
  let body ← readBody frame head.2
  some (⟨line.1, line.2, headers, body.1⟩, body.2)

variable {bytes rest line name value method target : List UInt8} {b : UInt8} {r : Request}

/-- A field that can be written as a line and read back as it is. -/
structure Field.WellFormed (field : Field) : Prop where
  nonempty : field.1 ≠ []
  token : ∀ b ∈ field.1, isToken b = true
  bytes : ∀ b ∈ field.2, isFieldByte b = true
  trimmed : trim field.2 = field.2

/-- A request whose parts can be written as a head. Its framing fits the body,
or there is none to fit. -/
structure Request.WellFormed (r : Request) : Prop where
  methodNonempty : r.method ≠ []
  methodToken : ∀ b ∈ r.method, isToken b = true
  targetNonempty : r.target ≠ []
  target : ∀ b ∈ r.target, isTargetByte b = true ∧ b ≠ 32
  headers : ∀ field ∈ r.headers, field.WellFormed
  framed : ∃ frame, framing r.headers = some frame ∧ ∀ n, frame = .length n → r.body.length = n

theorem mem_trim (h : b ∈ trim value) : b ∈ value :=
  (List.dropWhile_sublist _).subset ((List.rdropWhile_prefix isBlank (value.dropWhile isBlank)).subset h)

/-- Trimmed is what has no white space on either side. The empty value is. -/
theorem trim_eq_self_iff : trim value = value ↔
    (∀ b ∈ value.head?, isBlank b = false) ∧ ∀ b ∈ value.getLast?, isBlank b = false := by
  constructor
  · intro h
    have hfront : value.dropWhile isBlank = value := by
      refine (List.dropWhile_sublist _).eq_of_length_le ?_
      have hlength := congrArg List.length h
      have hle := (List.rdropWhile_prefix isBlank (value.dropWhile isBlank)).length_le
      unfold trim at hlength
      omega
    constructor
    · intro b hb
      have hhead := List.head?_dropWhile_not isBlank value
      rw [hfront, Option.mem_def.mp hb] at hhead
      simpa using hhead
    · intro b hb
      unfold trim at h
      rw [hfront] at h
      obtain ⟨front, rfl⟩ := List.getLast?_eq_some_iff.mp hb
      by_contra hblank
      rw [List.rdropWhile_concat_pos _ _ _ (by simpa using hblank)] at h
      have hle := (List.rdropWhile_prefix isBlank front).length_le
      have hlength := congrArg List.length h
      rw [List.length_append, List.length_singleton] at hlength
      omega
  · rintro ⟨hhead, hlast⟩
    have hfront : value.dropWhile isBlank = value := by
      cases value with
      | nil => rfl
      | cons b rest => exact List.dropWhile_cons_of_neg (by rw [hhead b rfl]; exact Bool.false_ne_true)
    unfold trim
    rw [hfront, List.rdropWhile_eq_self_iff]
    intro hne
    rw [hlast _ (List.getLast?_eq_some_getLast hne)]
    exact Bool.false_ne_true

/-- Trimming blanks from both ends is idempotent. -/
theorem trim_trim (value : List UInt8) : trim (trim value) = trim value := by
  rw [trim_eq_self_iff]
  constructor
  · intro b hb
    have hprefix : trim value <+: value.dropWhile isBlank := List.rdropWhile_prefix _ _
    have hhead := List.head?_dropWhile_not isBlank value
    obtain ⟨tail, htail⟩ := hprefix
    cases htrim : trim value with
    | nil =>
        rw [htrim] at hb
        cases hb
    | cons c rest =>
        rw [htrim] at hb htail
        obtain rfl := Option.some.inj hb
        rw [← htail] at hhead
        simpa using hhead
  · intro b hb
    have hne : trim value ≠ [] := by
      intro hnil
      rw [hnil] at hb
      cases hb
    have hlast := List.rdropWhile_last_not isBlank (value.dropWhile isBlank) hne
    rw [Option.mem_def, List.getLast?_eq_some_getLast hne] at hb
    obtain rfl := Option.some.inj hb
    exact Bool.eq_false_iff.mpr hlast

theorem cut_append {separator : UInt8} (h : separator ∉ name) (rest : List UInt8) :
    cut separator (name ++ separator :: rest) = (name, rest) := by
  have hall : ∀ b ∈ name, decide (b ≠ separator) = true := by
    intro b hb
    exact decide_eq_true fun heq => h (heq ▸ hb)
  unfold cut
  rw [List.takeWhile_append_of_pos hall, List.dropWhile_append_of_pos hall]
  simp

theorem ne_of_mem_cut {separator : UInt8} (h : b ∈ (cut separator line).1) : b ≠ separator := by
  simpa using List.mem_takeWhile_imp h

theorem requestLine_spec (h : requestLine line = some (method, target)) :
    (method ≠ [] ∧ ∀ b ∈ method, isToken b = true) ∧
      target ≠ [] ∧ ∀ b ∈ target, isTargetByte b = true ∧ b ≠ 32 := by
  unfold requestLine at h
  dsimp only at h
  split at h
  · rename_i hparts
    obtain ⟨hmethod, htoken, htarget, hbytes, -⟩ := hparts
    cases h
    exact ⟨⟨hmethod, List.all_eq_true.mp htoken⟩, htarget,
      fun b hb => ⟨List.all_eq_true.mp hbytes b hb, ne_of_mem_cut hb⟩⟩
  · cases h

theorem fieldLine_spec {field : Field} (h : fieldLine line = some field) : field.WellFormed := by
  unfold fieldLine at h
  dsimp only at h
  split at h
  · rename_i hparts
    obtain ⟨-, hname, htoken, hbytes⟩ := hparts
    cases h
    exact ⟨hname, List.all_eq_true.mp htoken,
      fun b hb => List.all_eq_true.mp hbytes b (mem_trim hb), trim_trim _⟩
  · cases h

/-- Every element of a list that was parsed element by element comes from one of
the texts. -/
theorem mem_of_mapM {α β : Type} {f : α → Option β} {xs : List α} {ys : List β} {y : β}
    (h : xs.mapM f = some ys) (hy : y ∈ ys) : ∃ x ∈ xs, f x = some y := by
  induction xs generalizing ys with
  | nil =>
      cases h
      cases hy
  | cons x xs ih =>
      rw [List.mapM_cons] at h
      obtain ⟨z, hz, h⟩ := Option.bind_eq_some_iff.mp h
      obtain ⟨zs, hzs, h⟩ := Option.bind_eq_some_iff.mp h
      cases h
      obtain rfl | hmem := List.mem_cons.mp hy
      · exact ⟨x, List.mem_cons_self, hz⟩
      · obtain ⟨x', hx', hy'⟩ := ih hzs hmem
        exact ⟨x', List.mem_cons_of_mem _ hx', hy'⟩

theorem mapM_map {α β γ : Type} {f : β → Option γ} {g : α → β} {k : α → γ} {xs : List α}
    (h : ∀ x ∈ xs, f (g x) = some (k x)) : (xs.map g).mapM f = some (xs.map k) := by
  induction xs with
  | nil => rfl
  | cons x xs ih =>
      rw [List.map_cons, List.mapM_cons, h x List.mem_cons_self,
        ih fun y hy => h y (List.mem_cons_of_mem _ hy)]
      rfl

/-- What has been parsed can be written again: method, target and fields obey
the grammar. -/
theorem parse_wellFormed (h : parse bytes = some (r, rest)) : r.WellFormed := by
  unfold parse at h
  obtain ⟨head, -, h⟩ := Option.bind_eq_some_iff.mp h
  obtain ⟨⟨method, target⟩, hline, h⟩ := Option.bind_eq_some_iff.mp h
  obtain ⟨headers, hheaders, h⟩ := Option.bind_eq_some_iff.mp h
  obtain ⟨frame, hframe, h⟩ := Option.bind_eq_some_iff.mp h
  obtain ⟨body, hbody, h⟩ := Option.bind_eq_some_iff.mp h
  obtain ⟨line, -, hline⟩ := Option.bind_eq_some_iff.mp hline
  cases h
  obtain ⟨⟨hmethod, htoken⟩, htarget, hbytes⟩ := requestLine_spec hline
  refine ⟨hmethod, htoken, htarget, hbytes, fun field hfield => ?_, frame, hframe, fun n hn => ?_⟩
  · obtain ⟨text, -, hread⟩ := mem_of_mapM hheaders hfield
    exact fieldLine_spec hread
  · subst hn
    unfold readBody at hbody
    dsimp only at hbody
    split at hbody
    · cases hbody
    · cases hbody
      rw [List.length_take]
      omega

theorem takeHead_line {text : List UInt8} (h : 13 ∉ text) (line rest : List UInt8) :
    takeHead line (text ++ 13 :: 10 :: rest) =
      if line ++ text = [] then some ([], rest)
      else (takeHead [] rest).map (Prod.map (List.cons (line ++ text)) id) := by
  induction text generalizing line with
  | nil =>
      rw [List.nil_append, takeHead, List.append_nil]
  | cons b text ih =>
      obtain ⟨hb, htext⟩ := not_or.mp (mt List.mem_cons.mpr h)
      rw [List.cons_append, takeHead, ih htext, List.append_assoc, List.singleton_append]
      rintro rest' rfl
      exact absurd rfl hb

/-- Lines, an empty one, and what is behind. -/
def writeHead (lines : List (List UInt8)) (body : List UInt8) : List UInt8 :=
  lines.flatMap (· ++ [13, 10]) ++ 13 :: 10 :: body

theorem takeHead_writeHead {lines : List (List UInt8)} (h : ∀ line ∈ lines, line ≠ [] ∧ 13 ∉ line)
    (body : List UInt8) : takeHead [] (writeHead lines body) = some (lines, body) := by
  induction lines with
  | nil => rfl
  | cons line lines ih =>
      obtain ⟨⟨hne, hline⟩, hlines⟩ := List.forall_mem_cons.mp h
      have hwrite : writeHead (line :: lines) body = line ++ 13 :: 10 :: writeHead lines body := by
        simp [writeHead]
      rw [hwrite, takeHead_line hline, List.nil_append, if_neg hne, ih hlines]
      rfl

theorem requestLine_eq (hmethod : method ≠ []) (htoken : ∀ b ∈ method, isToken b = true)
    (htarget : target ≠ []) (hbytes : ∀ b ∈ target, isTargetByte b = true ∧ b ≠ 32) :
    requestLine (method ++ 32 :: (target ++ 32 :: version 49)) = some (method, target) := by
  have hspace : 32 ∉ method := fun hmem => absurd (htoken 32 hmem) (by decide)
  have hspace' : 32 ∉ target := fun hmem => (hbytes 32 hmem).2 rfl
  unfold requestLine
  rw [cut_append hspace, cut_append hspace']
  exact if_pos ⟨hmethod, List.all_eq_true.mpr htoken, htarget,
    List.all_eq_true.mpr fun b hb => (hbytes b hb).1, List.mem_cons_self⟩

theorem fieldLine_eq {field : Field} (h : field.WellFormed) :
    fieldLine (field.1 ++ 58 :: 32 :: field.2) = some field := by
  have hcolon : 58 ∉ field.1 := fun hmem => absurd (h.token 58 hmem) (by decide)
  have hvalue : (32 :: field.2).all isFieldByte = true := by
    rw [List.all_cons, List.all_eq_true.mpr h.bytes]
    decide
  have htrim : trim (32 :: field.2) = field.2 := by
    have hsame := h.trimmed
    unfold trim at hsame ⊢
    rwa [List.dropWhile_cons_of_pos (by decide)]
  unfold fieldLine
  rw [cut_append hcolon]
  dsimp only
  rw [if_pos ⟨by simp, h.nonempty, List.all_eq_true.mpr h.token, hvalue⟩, htrim]

/-- The length of what a head is read from: at least its empty line is taken
away. -/
theorem takeHead_length {lines : List (List UInt8)} (h : takeHead line bytes = some (lines, rest)) :
    rest.length + 2 ≤ bytes.length := by
  fun_induction takeHead line bytes generalizing lines with
  | case1 rest' =>
      cases h
      exact Nat.le_refl _
  | case2 line rest' hline ih =>
      obtain ⟨⟨lines', rest''⟩, hhead, heq⟩ := Option.map_eq_some_iff.mp h
      cases heq
      have hle := ih hhead
      rw [List.length_cons, List.length_cons]
      exact Nat.le_trans hle (Nat.le_add_right _ 2)
  | case3 line b rest' hline ih =>
      have hle := ih h
      rw [List.length_cons]
      omega
  | case4 => cases h

theorem takeLine_length (h : takeLine bytes = some (line, rest)) :
    rest.length < bytes.length := by
  fun_induction takeLine bytes generalizing line with
  | case1 rest' =>
      cases h
      rw [List.length_cons, List.length_cons]
      omega
  | case2 b rest' hline ih =>
      obtain ⟨⟨line', rest''⟩, htail, heq⟩ := Option.map_eq_some_iff.mp h
      cases heq
      have hlt := ih htail
      rw [List.length_cons]
      exact Nat.lt_succ_of_lt hlt
  | case3 => cases h

/-- Chunks are longer than their data, since each of them has a size line. A
length can therefore not be taken for chunks of the same body. -/
theorem chunkedBody_length {fuel : Nat} {body : List UInt8}
    (h : chunkedBody fuel bytes = some (body, rest)) : body.length + rest.length < bytes.length := by
  induction fuel generalizing bytes body with
  | zero => cases h
  | succ fuel ih =>
      rw [chunkedBody] at h
      obtain ⟨⟨line, behind⟩, hline, h⟩ := Option.bind_eq_some_iff.mp h
      obtain ⟨size, -, h⟩ := Option.bind_eq_some_iff.mp h
      have hlt := takeLine_length hline
      dsimp only at h
      split at h
      · obtain ⟨⟨trailer, behind'⟩, htrailer, h⟩ := Option.bind_eq_some_iff.mp h
        cases h
        have hle := takeHead_length htrailer
        rw [List.length_nil]
        dsimp only at hle ⊢
        omega
      · split at h
        · obtain ⟨⟨more, behind'⟩, hmore, h⟩ := Option.bind_eq_some_iff.mp h
          cases h
          have hle := ih hmore
          rw [List.length_drop] at hle
          rw [List.length_append, List.length_take]
          dsimp only at hle ⊢
          omega
        · cases h

/-- What stands behind a length is the body exactly if the length is its length,
and behind a coding it never is. -/
theorem readBody_eq_iff (frame : Framing) (body : List UInt8) :
    readBody frame body = some (body, []) ↔ frame = .length body.length := by
  constructor
  · intro h
    cases frame with
    | length n =>
        unfold readBody at h
        dsimp only at h
        split at h
        · cases h
        · rename_i hle
          have hdrop := List.drop_eq_nil_iff.mp (Prod.mk.inj (Option.some.inj h)).2
          congr 1
          omega
    | chunked =>
        have hlt := chunkedBody_length h
        rw [List.length_nil] at hlt
        omega
  · rintro rfl
    unfold readBody
    dsimp only
    rw [if_neg (Nat.lt_irrefl _), List.take_length, List.drop_length]

/-- A head that is written is read back, and the body is what its framing takes.
The fields need not be those of one reader; it is enough that each is well
formed. -/
theorem parse_write {headers : List Field} {body : List UInt8} {method target : List UInt8}
    (hmethod : method ≠ []) (htoken : ∀ b ∈ method, isToken b = true) (htarget : target ≠ [])
    (hbytes : ∀ b ∈ target, isTargetByte b = true ∧ b ≠ 32)
    (hheaders : ∀ field ∈ headers, field.WellFormed) :
    parse (writeHead ((method ++ 32 :: (target ++ 32 :: version 49)) ::
        headers.map fun field => field.1 ++ 58 :: 32 :: field.2) body) =
      (framing headers).bind fun frame => (readBody frame body).map fun read =>
        (⟨method, target, headers, read.1⟩, read.2) := by
  have hlines : ∀ line ∈ (method ++ 32 :: (target ++ 32 :: version 49)) ::
      headers.map fun field => field.1 ++ 58 :: 32 :: field.2, line ≠ [] ∧ 13 ∉ line := by
    refine List.forall_mem_cons.mpr ⟨⟨by simp, fun hmem => ?_⟩, ?_⟩
    · simp only [List.mem_append, List.mem_cons, version] at hmem
      obtain hmem | h | hmem | hmem := hmem
      · exact absurd (htoken 13 hmem) (by decide)
      · cases h
      · exact absurd (hbytes 13 hmem).1 (by decide)
      · revert hmem
        decide
    · rintro line hline
      obtain ⟨field, hfield, rfl⟩ := List.mem_map.mp hline
      have hwell := hheaders field hfield
      refine ⟨by simp, fun hmem => ?_⟩
      simp only [List.mem_append, List.mem_cons] at hmem
      obtain hmem | h | h | hmem := hmem
      · exact absurd (hwell.token 13 hmem) (by decide)
      · cases h
      · cases h
      · exact absurd (hwell.bytes 13 hmem) (by decide)
  have hfields : (headers.map fun field => field.1 ++ 58 :: 32 :: field.2).mapM fieldLine =
      some headers := by
    have hmap := @mapM_map _ _ _ fieldLine (fun field : Field => field.1 ++ 58 :: 32 :: field.2) id
      headers fun field hfield => fieldLine_eq (hheaders field hfield)
    rwa [List.map_id] at hmap
  unfold parse
  rw [takeHead_writeHead hlines]
  dsimp only [bind, Option.bind_some, List.head?_cons, List.tail_cons]
  rw [requestLine_eq hmethod htoken htarget hbytes, hfields]
  dsimp only [Option.bind_some]
  cases framing headers with
  | none => rfl
  | some frame =>
      dsimp only [Option.bind_some]
      cases readBody frame body <;> rfl

/-- With codings the framing is no length, even where a length is given. -/
theorem framing_of_coded {headers : List Field} {field : Field} (hfield : field ∈ headers)
    (hcoding : named transferEncoding field = true) (n : Nat) : framing headers ≠ some (.length n) := by
  intro h
  have hmem : field ∈ headers.filter (named transferEncoding) := List.mem_filter.mpr ⟨hfield, hcoding⟩
  unfold framing at h
  rw [List.getLast?_eq_some_getLast (List.ne_nil_of_mem hmem)] at h
  dsimp only at h
  split at h <;> cases h

/-- Without codings the framing is a length; it is zero where none is given. -/
theorem framing_of_not_coded {headers : List Field} {frame : Framing}
    (hcoding : ∀ field ∈ headers, named transferEncoding field = false)
    (h : framing headers = some frame) : ∃ n, frame = .length n := by
  have hnone : headers.filter (named transferEncoding) = [] := by
    refine List.filter_eq_nil_iff.mpr fun field hfield => ?_
    rw [hcoding field hfield]
    exact Bool.false_ne_true
  unfold framing at h
  rw [hnone] at h
  dsimp only [List.getLast?_nil] at h
  split at h
  · exact ⟨0, (Option.some.inj h).symm⟩
  · obtain ⟨n, -, rfl⟩ := Option.map_eq_some_iff.mp h
    exact ⟨n, rfl⟩
  · cases h

/-- The framing goes by two fields only. Messages that agree in these are framed
in the same way. -/
theorem framing_congr {headers headers' : List Field}
    (hcoding : headers.filter (named transferEncoding) = headers'.filter (named transferEncoding))
    (hlength : headers.filter (named contentLength) = headers'.filter (named contentLength)) :
    framing headers = framing headers' := by
  have hany : headers.any (named contentLength) = headers'.any (named contentLength) := by
    rw [Bool.eq_iff_iff, List.any_eq_true, List.any_eq_true]
    have hiff : ∀ hs : List Field, (∃ field ∈ hs, named contentLength field = true) ↔
        hs.filter (named contentLength) ≠ [] := by
      intro hs
      rw [Ne, List.filter_eq_nil_iff]
      simp
    rw [hiff, hiff, hlength]
  unfold framing
  rw [hcoding, hlength, hany]

theorem trim_of_not_blank (h : ∀ b ∈ value, isBlank b = false) : trim value = value :=
  trim_eq_self_iff.mpr
    ⟨fun b hb => h b (List.mem_of_head? hb), fun b hb => h b (List.mem_of_getLast? hb)⟩

end HttpRequest

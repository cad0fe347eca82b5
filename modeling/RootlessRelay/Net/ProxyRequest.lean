import RootlessRelay.Library.HttpRequest
import RootlessRelay.Net.Allocator
import RootlessRelay.Net.ProxyPath

/-!
# Requests that are proxied

`proxyRequest` writes the head of a request anew, from the strings that the HTTP
server has read, and pipes its body behind. The strings have a character for
each byte of the request and are written in UTF-8, and the body has been freed
of its chunks while the field that announces them is forwarded.

What is written is read back as the VM would read it (`HttpRequest.parse`), and
compared with the request as method, URL, headers and body. It is that request
exactly if the URL and the values that are forwarded are ASCII without a
character that ends the line, and no field announces codings. The request is any
that the grammar of the library accepts; how a particular server reads it from a
socket is not part of the model.
-/

namespace RootlessRelay

open HttpRequest InsertionMap

/-- What `IncomingMessage` has of a request, with the body as the stream
delivers it. -/
structure IncomingMessage where
  method : Text
  url : Text
  rawHeaders : List (Text × Text)
  body : Bytes
  deriving DecidableEq, Repr

/-- A string with a character for each byte, as the server reads heads. -/
def latin1 (bytes : Bytes) : Text := bytes.map fun b => Char.ofNat b.toNat

/-- The message for a request that has been read, its chunks decoded and their
field left in place. -/
def IncomingMessage.ofRequest (r : Request) : IncomingMessage where
  method := latin1 r.method
  url := latin1 r.target
  rawHeaders := r.headers.map (Prod.map latin1 latin1)
  body := r.body

/-- The bytes that `write` makes of a string. Above ASCII a character has
several. -/
def utf8 (text : Text) : Bytes := text.flatMap String.utf8EncodeChar

/-- `toLowerCase()` on the characters of a head. -/
def toLowerCase (text : Text) : Text := text.map Char.toLower

/-- The headers that the relay sets itself, in whatever case they come. -/
def isReplaced (header : Text × Text) : Bool :=
  toLowerCase header.1 = ['h', 'o', 's', 't'] ∨
    toLowerCase header.1 = ['c', 'o', 'n', 'n', 'e', 'c', 't', 'i', 'o', 'n']

/-- The `Host` that the relay sets: the address and the port of the rule. -/
def hostHeader (rule : HttpRule) : Text × Text :=
  (['H', 'o', 's', 't'], rule.vm ++ ':' :: Nat.toDigits 10 rule.port)

/-- The `Connection` that the relay sets, so that the VM closes behind its
response. -/
def connectionHeader : Text × Text :=
  (['C', 'o', 'n', 'n', 'e', 'c', 't', 'i', 'o', 'n'], ['c', 'l', 'o', 's', 'e'])

/-- The headers in the order in which they are written: those of the request,
and the relay's own behind them. -/
def forwardedHeaders (rule : HttpRule) (req : IncomingMessage) : List (Text × Text) :=
  req.rawHeaders.filter (fun header => !isReplaced header) ++ [hostHeader rule, connectionHeader]

/-- `headers.join("\r\n")`, the request line in front and an empty line behind. -/
def requestData (rule : HttpRule) (req : IncomingMessage) : Text :=
  let requestLine := req.method ++ ' ' :: (forwardedUrl rule req.url ++
    [' ', 'H', 'T', 'T', 'P', '/', '1', '.', '1'])
  let headers := (forwardedHeaders rule req).map fun header => header.1 ++ ':' :: ' ' :: header.2
  ['\r', '\n'].intercalate ((requestLine :: headers) ++ [[], []])

/-- What `proxyRequest` writes to the VM; without a session of the VM it answers
502. -/
def proxyRequest (ipToSession : List (Text × SessionId)) (rule : HttpRule) (req : IncomingMessage) :
    Option Bytes :=
  match get ipToSession rule.vm with
  | none => none
  | some _ => some (utf8 (requestData rule req) ++ req.body)

/-- What is written is one request, with the method, the rewritten target and
the body of the request and with its headers, but for those that the relay sets. -/
def KeepsRequest (rule : HttpRule) (req : IncomingMessage) (written : Bytes) : Prop :=
  ∃ r, parse written = some (r, []) ∧ IncomingMessage.ofRequest r =
    { req with url := forwardedUrl rule req.url, rawHeaders := forwardedHeaders rule req }

/-- The body was not chunked, the target and the values that are forwarded are
ASCII, and nothing in the target ends it. -/
structure Forwardable (rule : HttpRule) (req : IncomingMessage) : Prop where
  target : ∀ c ∈ forwardedUrl rule req.url, c.toNat < 128 ∧ c.toNat ∉ [0, 10, 13, 32]
  values : ∀ header ∈ req.rawHeaders, isReplaced header = false → ∀ c ∈ header.2, c.toNat < 128
  coding : ∀ header ∈ req.rawHeaders, toLowerCase header.1 ≠ latin1 transferEncoding

variable {text text' : Text} {bytes : Bytes} {b : UInt8} {rule : HttpRule} {req : IncomingMessage}

theorem char_of_byte (b : UInt8) : (Char.ofNat b.toNat).toNat = b.toNat := by
  have hlt := UInt8.toNat_lt b
  rw [Char.ofNat, dif_pos (.inl (by omega))]
  rfl

theorem latin1_injective : Function.Injective latin1 := by
  refine List.map_injective_iff.mpr fun b b' h => ?_
  have hnat := congrArg Char.toNat h
  rw [char_of_byte, char_of_byte] at hnat
  exact UInt8.toNat_inj.mp hnat

/-- A character is one byte or several, and those are none of ASCII. All facts
about UTF-8 here come from this one. -/
theorem utf8EncodeChar_cases (c : Char) :
    (c.toNat < 128 ∧ String.utf8EncodeChar c = [UInt8.ofNat c.toNat]) ∨
    (128 ≤ c.toNat ∧ 2 ≤ (String.utf8EncodeChar c).length ∧
      ∀ b ∈ String.utf8EncodeChar c, 128 ≤ b.toNat) := by
  have hval : c.val.toNat = c.toNat := rfl
  unfold String.utf8EncodeChar
  dsimp only
  rw [hval]
  by_cases hone : c.toNat ≤ 0x7f
  · rw [if_pos hone]
    exact .inl ⟨by omega, rfl⟩
  rw [if_neg hone]
  refine .inr ⟨by omega, ?_⟩
  split
  · refine ⟨by simp, ?_⟩
    simp only [List.forall_mem_cons, UInt8.toNat_ofNat']
    refine ⟨by omega, by omega, by simp⟩
  split
  · refine ⟨by simp, ?_⟩
    simp only [List.forall_mem_cons, UInt8.toNat_ofNat']
    refine ⟨by omega, by omega, by omega, by simp⟩
  · refine ⟨by simp, ?_⟩
    simp only [List.forall_mem_cons, UInt8.toNat_ofNat']
    refine ⟨by omega, by omega, by omega, by omega, by simp⟩

@[simp] theorem utf8_nil : utf8 [] = [] := rfl

theorem utf8_append (text text' : Text) : utf8 (text ++ text') = utf8 text ++ utf8 text' :=
  List.flatMap_append

theorem utf8_cons (c : Char) (text : Text) : utf8 (c :: text) = String.utf8EncodeChar c ++ utf8 text :=
  List.flatMap_cons

/-- ASCII is written as it is, one byte for each character. -/
theorem utf8_ascii (h : ∀ c ∈ text, c.toNat < 128) :
    utf8 text = text.map fun c => UInt8.ofNat c.toNat := by
  induction text with
  | nil => rfl
  | cons c text ih =>
      obtain ⟨hc, htext⟩ := List.forall_mem_cons.mp h
      obtain ⟨-, hone⟩ | ⟨hge, -⟩ := utf8EncodeChar_cases c
      · rw [utf8_cons, hone, ih htext]
        rfl
      · omega

theorem length_le_utf8 (text : Text) : text.length ≤ (utf8 text).length := by
  induction text with
  | nil => exact Nat.le_refl _
  | cons c text ih =>
      rw [utf8_cons, List.length_append, List.length_cons]
      obtain ⟨-, hone⟩ | ⟨-, htwo, -⟩ := utf8EncodeChar_cases c
      · rw [hone, List.length_singleton]
        omega
      · omega

/-- What is written is read as the same string only if it is ASCII, since
another character becomes several. -/
theorem latin1_utf8_iff (text : Text) : latin1 (utf8 text) = text ↔ ∀ c ∈ text, c.toNat < 128 := by
  constructor
  · intro h
    have hlength := congrArg List.length h
    rw [latin1, List.length_map] at hlength
    clear h
    induction text with
    | nil => exact fun c hc => absurd hc List.not_mem_nil
    | cons c text ih =>
        have hle := length_le_utf8 text
        rw [utf8_cons, List.length_append, List.length_cons] at hlength
        obtain ⟨hlt, hone⟩ | ⟨-, htwo, -⟩ := utf8EncodeChar_cases c
        · rw [hone, List.length_singleton] at hlength
          exact List.forall_mem_cons.mpr ⟨hlt, ih (by omega)⟩
        · omega
  · intro h
    rw [utf8_ascii h, latin1, List.map_map]
    refine (List.map_congr_left fun c hc => ?_).trans (List.map_id text)
    have hlt := h c hc
    have hbyte : (UInt8.ofNat c.toNat).toNat = c.toNat := by
      rw [UInt8.toNat_ofNat']
      omega
    change Char.ofNat (UInt8.ofNat c.toNat).toNat = c
    rw [hbyte, Char.ofNat_toNat]

/-- A byte of ASCII stands for its character; it is never part of another. -/
theorem mem_utf8 (h : b ∈ utf8 text) (hlt : b.toNat < 128) : ∃ c ∈ text, c.toNat = b.toNat := by
  obtain ⟨c, hc, hb⟩ := List.mem_flatMap.mp h
  obtain ⟨hsmall, hone⟩ | ⟨-, -, hlarge⟩ := utf8EncodeChar_cases c
  · rw [hone, List.mem_singleton] at hb
    refine ⟨c, hc, ?_⟩
    rw [hb, UInt8.toNat_ofNat']
    omega
  · exact absurd (hlarge b hb) (by omega)

theorem latin1_ascii (h : ∀ b ∈ bytes, b.toNat < 128) : ∀ c ∈ latin1 bytes, c.toNat < 128 := by
  intro c hc
  obtain ⟨b, hb, rfl⟩ := List.mem_map.mp hc
  rw [char_of_byte]
  exact h b hb

/-- Bytes of ASCII are read and written as they are. -/
theorem utf8_latin1 (h : ∀ b ∈ bytes, b.toNat < 128) : utf8 (latin1 bytes) = bytes :=
  latin1_injective ((latin1_utf8_iff _).mpr (latin1_ascii h))

theorem mem_utf8_latin1 (h : b ∈ utf8 (latin1 bytes)) : b ∈ bytes ∨ 128 ≤ b.toNat := by
  by_cases hlt : b.toNat < 128
  · obtain ⟨c, hc, hb⟩ := mem_utf8 h hlt
    obtain ⟨b', hb', rfl⟩ := List.mem_map.mp hc
    rw [char_of_byte] at hb
    exact .inl (UInt8.toNat_inj.mp hb ▸ hb')
  · exact .inr (Nat.not_lt.mp hlt)

theorem byte_forall {P : UInt8 → Prop} (h : ∀ n < 256, P (UInt8.ofNat n)) (b : UInt8) : P b := by
  have hb := h b.toNat (UInt8.toNat_lt b)
  rwa [UInt8.ofNat_toNat] at hb

theorem toLowerCase_latin1 (bytes : Bytes) : toLowerCase (latin1 bytes) = latin1 (bytes.map lower) := by
  have hbyte : ∀ b : UInt8, (Char.ofNat b.toNat).toLower = Char.ofNat (lower b).toNat :=
    byte_forall (by decide +kernel)
  unfold toLowerCase latin1
  rw [List.map_map, List.map_map]
  exact List.map_congr_left fun b _ => hbyte b

/-- The field that a header is written as. -/
def fieldOf (header : Text × Text) : Field := (utf8 header.1, utf8 header.2)

theorem token_ascii (h : isToken b = true) : b.toNat < 128 := by
  revert h
  exact byte_forall (P := fun b => isToken b = true → b.toNat < 128) (by decide +kernel) b

theorem large_byte (h : 128 ≤ b.toNat) : isFieldByte b = true ∧ isTargetByte b = true ∧
    b ≠ 32 ∧ isBlank b = false := by
  revert h
  exact byte_forall (P := fun b => 128 ≤ b.toNat → isFieldByte b = true ∧ isTargetByte b = true ∧
    b ≠ 32 ∧ isBlank b = false) (by decide +kernel) b

/-- A name is written as it was read: its bytes are tokens. -/
theorem fieldOf_name {field : Field} (h : field.WellFormed) :
    utf8 (latin1 field.1) = field.1 := utf8_latin1 fun b hb => token_ascii (h.token b hb)

/-- A field that Node has decoded is well formed again when it is written. -/
theorem wellFormed_fieldOf {field : Field} (h : field.WellFormed) :
    Field.WellFormed (fieldOf (Prod.map latin1 latin1 field)) := by
  have hblank : ∀ b, isBlank b = false →
      ∀ b' ∈ String.utf8EncodeChar (Char.ofNat b.toNat), isBlank b' = false := by
    intro b hb b' hb'
    obtain ⟨-, hone⟩ | ⟨-, -, hlarge⟩ := utf8EncodeChar_cases (Char.ofNat b.toNat)
    · rw [hone, char_of_byte, UInt8.ofNat_toNat, List.mem_singleton] at hb'
      rw [hb', hb]
    · exact (large_byte (hlarge b' hb')).2.2.2
  obtain ⟨hhead, hlast⟩ := trim_eq_self_iff.mp h.trimmed
  refine ⟨?_, ?_, fun b hb => ?_, trim_eq_self_iff.mpr ⟨fun b hb => ?_, fun b hb => ?_⟩⟩
  · change utf8 (latin1 field.1) ≠ []
    rw [fieldOf_name h]
    exact h.nonempty
  · change ∀ b ∈ utf8 (latin1 field.1), _
    rw [fieldOf_name h]
    exact h.token
  · obtain hmem | hlarge := mem_utf8_latin1 hb
    · exact h.bytes b hmem
    · exact (large_byte hlarge).1
  · change b ∈ (utf8 (latin1 field.2)).head? at hb
    cases hvalue : field.2 with
    | nil =>
        rw [hvalue] at hb
        cases hb
    | cons first rest =>
        rw [hvalue] at hb hhead
        refine hblank first (hhead first rfl) b ?_
        change b ∈ (utf8 (Char.ofNat first.toNat :: latin1 rest)).head? at hb
        rw [utf8_cons, List.head?_append_of_ne_nil _ String.utf8EncodeChar_ne_nil] at hb
        exact List.mem_of_head? hb
  · change b ∈ (utf8 (latin1 field.2)).getLast? at hb
    obtain hnil | ⟨front, final, hvalue⟩ := List.eq_nil_or_concat field.2
    · rw [hnil] at hb
      cases hb
    · rw [List.concat_eq_append] at hvalue
      rw [hvalue] at hb hlast
      refine hblank final (hlast final List.getLast?_concat) b ?_
      rw [latin1, List.map_append, List.map_singleton, utf8_append, utf8_cons, utf8_nil,
        List.append_nil, List.getLast?_append_of_ne_nil _ String.utf8EncodeChar_ne_nil] at hb
      exact List.mem_of_getLast? hb

/-- A digit, or a mark of an address or its port. -/
def isAddressChar (c : Char) : Bool := c.isDigit || c = '.' || c = ':'

theorem addressChar_byte {c : Char} (h : isAddressChar c = true) :
    c.toNat < 128 ∧ isFieldByte (UInt8.ofNat c.toNat) = true ∧ isBlank (UInt8.ofNat c.toNat) = false := by
  unfold isAddressChar at h
  rw [Bool.or_eq_true, Bool.or_eq_true, decide_eq_true_eq, decide_eq_true_eq] at h
  obtain (hdigit | rfl) | rfl := h
  · obtain ⟨hlow, hhigh⟩ := NumberText.isDigit_bounds hdigit
    have hall : ∀ n, n < 58 → 48 ≤ n → isFieldByte (UInt8.ofNat n) = true ∧
        isBlank (UInt8.ofNat n) = false := by decide
    exact ⟨by omega, hall c.toNat (by omega) hlow⟩
  · decide
  · decide

/-- The text of an address consists of digits and dots. -/
theorem isAddressChar_text (a : Address) : ∀ c ∈ a.text, isAddressChar c = true := by
  have hdigits : ∀ n, ∀ c ∈ Nat.toDigits 10 n, isAddressChar c = true := by
    intro n c hc
    unfold isAddressChar
    rw [NumberText.isDigit_of_mem_toDigits c hc]
    rfl
  intro c hc
  unfold Address.text at hc
  simp only [List.map_cons, List.map_nil, List.intercalate_cons_cons, List.intercalate_singleton,
    List.mem_append, List.mem_singleton] at hc
  obtain ((hc | rfl) | (hc | rfl) | (hc | rfl) | hc) := hc
  · exact hdigits _ c hc
  · rfl
  · exact hdigits _ c hc
  · rfl
  · exact hdigits _ c hc
  · rfl
  · exact hdigits _ c hc

/-- The host header that the proxy adds obeys the grammar, for an address of the
VM. -/
theorem hostHeader_wellFormed {a : Address} (h : rule.vm = a.text) :
    Field.WellFormed (fieldOf (hostHeader rule)) ∧ ∀ c ∈ (hostHeader rule).2, c.toNat < 128 := by
  have hchars : ∀ c ∈ (hostHeader rule).2, isAddressChar c = true := by
    intro c hc
    change c ∈ rule.vm ++ ':' :: Nat.toDigits 10 rule.port at hc
    rw [List.mem_append, List.mem_cons] at hc
    obtain hvm | rfl | hport := hc
    · rw [h] at hvm
      exact isAddressChar_text a c hvm
    · rfl
    · unfold isAddressChar
      rw [NumberText.isDigit_of_mem_toDigits c hport]
      rfl
  have hascii : ∀ c ∈ (hostHeader rule).2, c.toNat < 128 :=
    fun c hc => (addressChar_byte (hchars c hc)).1
  have hbytes : ∀ b ∈ utf8 (hostHeader rule).2, isFieldByte b = true ∧ isBlank b = false := by
    intro b hb
    rw [utf8_ascii hascii] at hb
    obtain ⟨c, hc, rfl⟩ := List.mem_map.mp hb
    exact (addressChar_byte (hchars c hc)).2
  refine ⟨⟨?_, ?_, fun b hb => (hbytes b hb).1, trim_of_not_blank fun b hb => (hbytes b hb).2⟩,
    hascii⟩
  · change utf8 ['H', 'o', 's', 't'] ≠ []
    decide
  · change ∀ b ∈ utf8 ['H', 'o', 's', 't'], isToken b = true
    exact List.all_eq_true.mp (by decide)

theorem connectionHeader_wellFormed :
    Field.WellFormed (fieldOf connectionHeader) ∧ ∀ c ∈ connectionHeader.2, c.toNat < 128 := by
  have hname : ∀ b ∈ utf8 connectionHeader.1, isToken b = true := List.all_eq_true.mp (by decide)
  have hvalue : ∀ b ∈ utf8 connectionHeader.2, isFieldByte b = true :=
    List.all_eq_true.mp (by decide)
  have hascii : ∀ c ∈ connectionHeader.2, c.toNat < 128 := by simp [connectionHeader]
  exact ⟨⟨by decide, hname, hvalue, by decide⟩, hascii⟩

theorem intercalate_lines {separator : Text} (lines : List Text) :
    separator.intercalate (lines ++ [[], []]) = lines.flatMap (· ++ separator) ++ separator := by
  induction lines with
  | nil => simp
  | cons line lines ih =>
      rw [List.cons_append, List.intercalate_cons_of_ne_nil (by simp), ih]
      simp

/-- What the proxy writes is the head of a request in the sense of the grammar,
with the body behind it. -/
theorem written_eq (rule : HttpRule) (req : IncomingMessage) :
    utf8 (requestData rule req) ++ req.body =
      writeHead ((utf8 req.method ++ 32 :: (utf8 (forwardedUrl rule req.url) ++ 32 :: version 49)) ::
        ((forwardedHeaders rule req).map fieldOf).map fun field => field.1 ++ 58 :: 32 :: field.2)
        req.body := by
  have hends : utf8 ['\r', '\n'] = [13, 10] := by decide
  have hprotocol : utf8 [' ', 'H', 'T', 'T', 'P', '/', '1', '.', '1'] = 32 :: version 49 := by decide
  have hspace : String.utf8EncodeChar ' ' = [32] := by decide
  have hcolon : String.utf8EncodeChar ':' = [58] := by decide
  have hlines : ∀ lines : List Text, utf8 (lines.flatMap (· ++ ['\r', '\n'])) =
      (lines.map utf8).flatMap (· ++ [13, 10]) := by
    intro lines
    induction lines with
    | nil => rfl
    | cons line lines ih =>
        rw [List.flatMap_cons, utf8_append, utf8_append, ih, hends, List.map_cons, List.flatMap_cons]
  unfold requestData writeHead
  dsimp only
  rw [intercalate_lines, utf8_append, hlines, hends, List.map_cons, List.map_map, List.map_map,
    utf8_append, utf8_cons, utf8_append, hprotocol, hspace, List.append_assoc]
  have hfields : (fun header : Text × Text => utf8 (header.1 ++ ':' :: ' ' :: header.2)) =
      fun header => (fieldOf header).1 ++ 58 :: 32 :: (fieldOf header).2 := by
    funext header
    rw [utf8_append, utf8_cons, utf8_cons, hcolon, hspace]
    rfl
  have hmap : (forwardedHeaders rule req).map (utf8 ∘ fun header => header.1 ++ ':' :: ' ' :: header.2) =
      (forwardedHeaders rule req).map
        ((fun field => field.1 ++ 58 :: 32 :: field.2) ∘ fieldOf) :=
    congrArg (List.map · (forwardedHeaders rule req)) hfields
  rw [hmap]
  rfl

variable {r : Request} {stream rest written : Bytes} {header : Text × Text}

/-- The fields that are written for a request, as the VM reads them. -/
def forwardedFields (rule : HttpRule) (r : Request) : List Field :=
  (forwardedHeaders rule (.ofRequest r)).map fieldOf

theorem mem_forwardedHeaders {field : Field} (hfield : field ∈ r.headers)
    (hkept : isReplaced (Prod.map latin1 latin1 field) = false) :
    Prod.map latin1 latin1 field ∈ forwardedHeaders rule (.ofRequest r) := by
  refine List.mem_append_left _ (List.mem_filter.mpr ⟨List.mem_map_of_mem hfield, ?_⟩)
  rw [hkept]
  rfl

theorem forwardedFields_wellFormed {a : Address} (hwell : r.WellFormed) (hvm : rule.vm = a.text) :
    ∀ field ∈ forwardedFields rule r, field.WellFormed := by
  intro field hfield
  obtain ⟨header, hheader, rfl⟩ := List.mem_map.mp hfield
  obtain hkept | hset := List.mem_append.mp hheader
  · obtain ⟨source, hsource, rfl⟩ := List.mem_map.mp (List.mem_filter.mp hkept).1
    exact wellFormed_fieldOf (hwell.headers source hsource)
  · rw [List.mem_cons, List.mem_singleton] at hset
    obtain rfl | rfl := hset
    · exact (hostHeader_wellFormed hvm).1
    · exact connectionHeader_wellFormed.1

theorem utf8_method (hwell : r.WellFormed) : utf8 (latin1 r.method) = r.method :=
  utf8_latin1 fun b hb => token_ascii (hwell.methodToken b hb)

/-- How the VM reads what is written to it: the body is what the forwarded
fields say. -/
theorem parse_forwarded {a : Address} (hwell : r.WellFormed) (hvm : rule.vm = a.text)
    (hne : forwardedUrl rule (latin1 r.target) ≠ [])
    (htarget : ∀ c ∈ forwardedUrl rule (latin1 r.target), c.toNat ∉ [0, 10, 13, 32]) :
    parse (utf8 (requestData rule (.ofRequest r)) ++ r.body) =
      (framing (forwardedFields rule r)).bind fun frame => (readBody frame r.body).map fun read =>
        (⟨r.method, utf8 (forwardedUrl rule (latin1 r.target)), forwardedFields rule r, read.1⟩,
          read.2) := by
  have hwritten := written_eq rule (.ofRequest r)
  dsimp only [IncomingMessage.ofRequest] at hwritten
  rw [utf8_method hwell] at hwritten
  refine (congrArg parse hwritten).trans ?_
  refine parse_write hwell.methodNonempty hwell.methodToken ?_ (fun b hb => ?_)
    (forwardedFields_wellFormed hwell hvm)
  · intro hnil
    have hle := length_le_utf8 (forwardedUrl rule (latin1 r.target))
    rw [hnil] at hle
    exact hne (List.eq_nil_of_length_eq_zero (Nat.le_zero.mp hle))
  · by_cases hlt : b.toNat < 128
    · obtain ⟨c, hc, hb⟩ := mem_utf8 hb hlt
      have hnot := htarget c hc
      rw [hb] at hnot
      simp only [List.mem_cons, List.not_mem_nil, or_false, not_or] at hnot
      obtain ⟨hzero, hten, hthirteen, hspace⟩ := hnot
      refine ⟨decide_eq_true ?_, fun h => hspace (h ▸ rfl)⟩
      simp only [List.mem_cons, List.not_mem_nil, or_false, not_or]
      exact ⟨fun h => hzero (h ▸ rfl), fun h => hten (h ▸ rfl), fun h => hthirteen (h ▸ rfl)⟩
    · have hlarge := large_byte (Nat.not_lt.mp hlt)
      exact ⟨hlarge.2.1, hlarge.2.2.1⟩

theorem forwardedUrl_ne_nil (rule : HttpRule) {url : Text} (h : url ≠ []) :
    forwardedUrl rule url ≠ [] := by
  unfold forwardedUrl
  split
  · exact PosixPath.normalize_ne_nil _
  · exact h

theorem named_iff (name : Bytes) (field : Field) :
    named name field = true ↔ toLowerCase (latin1 field.1) = latin1 name := by
  rw [toLowerCase_latin1, latin1_injective.eq_iff]
  exact decide_eq_true_iff

theorem isReplaced_of_named {name : Bytes} (hname : name ∈ [transferEncoding, contentLength])
    (h : toLowerCase header.1 = latin1 name) : isReplaced header = false := by
  unfold isReplaced
  rw [h]
  clear h
  revert name
  decide

/-- Fields whose values are ASCII are written as they were read, byte by byte. -/
theorem fieldOf_eq {field : Field} (h : field.WellFormed)
    (hvalue : ∀ c ∈ latin1 field.2, c.toNat < 128) :
    fieldOf (Prod.map latin1 latin1 field) = field := by
  have hsame : utf8 (latin1 field.2) = field.2 :=
    latin1_injective ((latin1_utf8_iff _).mpr hvalue)
  exact Prod.ext (fieldOf_name h) hsame

/-- The fields that frame the body are forwarded, and none is added, so the body
is framed as before. -/
theorem filter_forwardedFields {name : Bytes} (hname : name ∈ [transferEncoding, contentLength])
    (hwell : r.WellFormed) (hforward : Forwardable rule (.ofRequest r)) :
    (forwardedFields rule r).filter (named name) = r.headers.filter (named name) := by
  have hset : ([hostHeader rule, connectionHeader].map fieldOf).filter (named name) = [] := by
    have hhost : (fieldOf (hostHeader rule)).1 = utf8 ['H', 'o', 's', 't'] := rfl
    rw [List.map_cons, List.map_singleton, List.filter_eq_nil_iff]
    simp only [List.forall_mem_cons, named, hhost]
    revert name
    decide
  have hkept : ∀ fields : List Field, (∀ field ∈ fields, field ∈ r.headers) →
      (((fields.map (Prod.map latin1 latin1)).filter fun header => !isReplaced header).map
        fieldOf).filter (named name) = fields.filter (named name) := by
    intro fields hfields
    induction fields with
    | nil => rfl
    | cons field fields ih =>
        obtain ⟨hfield, hfields⟩ := List.forall_mem_cons.mp hfields
        have htail := ih hfields
        rw [List.map_cons]
        cases hreplaced : isReplaced (Prod.map latin1 latin1 field) with
        | true =>
            have hnot : ¬named name field = true := by
              intro h
              have hfalse := @isReplaced_of_named (Prod.map latin1 latin1 field) name hname
                ((named_iff name field).mp h)
              rw [hreplaced] at hfalse
              cases hfalse
            rw [List.filter_cons_of_neg (by rw [hreplaced]; decide), List.filter_cons_of_neg hnot,
              htail]
        | false =>
            have hmem : Prod.map latin1 latin1 field ∈ (IncomingMessage.ofRequest r).rawHeaders :=
              List.mem_map_of_mem hfield
            have hsame := fieldOf_eq (hwell.headers field hfield)
              (hforward.values _ hmem hreplaced)
            rw [List.filter_cons_of_pos (by rw [hreplaced]; decide), List.map_cons, hsame,
              List.filter_cons, List.filter_cons, htail]
  have happend : forwardedFields rule r =
      (((r.headers.map (Prod.map latin1 latin1)).filter fun header => !isReplaced header).map
        fieldOf) ++ [hostHeader rule, connectionHeader].map fieldOf := List.map_append
  rw [happend, List.filter_append, hset, List.append_nil]
  exact hkept r.headers fun _ h => h

theorem framing_forwarded (hwell : r.WellFormed) (hforward : Forwardable rule (.ofRequest r)) :
    framing (forwardedFields rule r) = some (.length r.body.length) := by
  have hsame : framing (forwardedFields rule r) = framing r.headers :=
    framing_congr (filter_forwardedFields List.mem_cons_self hwell hforward)
      (filter_forwardedFields (List.mem_cons_of_mem _ List.mem_cons_self) hwell hforward)
  obtain ⟨frame, hframe, hlength⟩ := hwell.framed
  have hcoding : ∀ field ∈ r.headers, named transferEncoding field = false := by
    intro field hfield
    rw [Bool.eq_false_iff, Ne, named_iff]
    exact hforward.coding (Prod.map latin1 latin1 field) (List.mem_map_of_mem hfield)
  obtain ⟨n, rfl⟩ := framing_of_not_coded hcoding hframe
  rw [hsame, hframe, hlength n rfl]

/-- A header that is forwarded is read back if its value is ASCII, and only
then. -/
theorem header_kept_iff (hwell : r.WellFormed)
    (h : header ∈ forwardedHeaders rule (.ofRequest r)) :
    Prod.map latin1 latin1 (fieldOf header) = header ↔ ∀ c ∈ header.2, c.toNat < 128 := by
  have hname : latin1 (utf8 header.1) = header.1 := by
    obtain hkept | hset := List.mem_append.mp h
    · obtain ⟨field, hfield, rfl⟩ := List.mem_map.mp (List.mem_filter.mp hkept).1
      exact congrArg latin1 (fieldOf_name (hwell.headers field hfield))
    · rw [List.mem_cons, List.mem_singleton] at hset
      obtain rfl | rfl := hset
      · change latin1 (utf8 ['H', 'o', 's', 't']) = ['H', 'o', 's', 't']
        decide
      · decide
  rw [← latin1_utf8_iff]
  exact ⟨fun h => congrArg Prod.snd h, fun h => Prod.ext hname h⟩

/-- The headers are kept exactly if every one that is not replaced is written in
ASCII. -/
theorem headers_kept_iff {a : Address} (hwell : r.WellFormed) (hvm : rule.vm = a.text) :
    (forwardedFields rule r).map (Prod.map latin1 latin1) = forwardedHeaders rule (.ofRequest r) ↔
      ∀ header ∈ (IncomingMessage.ofRequest r).rawHeaders, isReplaced header = false →
        ∀ c ∈ header.2, c.toNat < 128 := by
  have hmap : (forwardedFields rule r).map (Prod.map latin1 latin1) =
      forwardedHeaders rule (.ofRequest r) ↔
        ∀ header ∈ forwardedHeaders rule (.ofRequest r), ∀ c ∈ header.2, c.toNat < 128 := by
    unfold forwardedFields
    rw [List.map_map]
    nth_rewrite 2 [← List.map_id (forwardedHeaders rule (.ofRequest r))]
    rw [List.map_inj_left]
    exact forall₂_congr fun header hheader => header_kept_iff hwell hheader
  rw [hmap]
  constructor
  · intro h header hheader hkept
    obtain ⟨field, hfield, rfl⟩ := List.mem_map.mp hheader
    exact h _ (mem_forwardedHeaders hfield hkept)
  · intro h header hheader
    obtain hkept | hset := List.mem_append.mp hheader
    · obtain ⟨hmem, hnot⟩ := List.mem_filter.mp hkept
      exact h header hmem (by simpa using hnot)
    · rw [List.mem_cons, List.mem_singleton] at hset
      obtain rfl | rfl := hset
      · exact (hostHeader_wellFormed hvm).2
      · exact connectionHeader_wellFormed.2

/-- A request that can be forwarded is read back by the server behind the proxy. -/
theorem Forwardable.keepsRequest {a : Address} (hwell : r.WellFormed) (hvm : rule.vm = a.text)
    (hforward : Forwardable rule (.ofRequest r)) :
    KeepsRequest rule (.ofRequest r) (utf8 (requestData rule (.ofRequest r)) ++ r.body) := by
  have hne : latin1 r.target ≠ [] := fun h => hwell.targetNonempty (List.map_eq_nil_iff.mp h)
  have hparse := parse_forwarded hwell hvm (forwardedUrl_ne_nil rule hne)
    fun c hc => (hforward.target c hc).2
  rw [framing_forwarded hwell hforward, Option.bind_some,
    (readBody_eq_iff _ _).mpr rfl, Option.map_some] at hparse
  refine ⟨_, hparse, ?_⟩
  have hurl : latin1 (utf8 (forwardedUrl rule (latin1 r.target))) =
      forwardedUrl rule (latin1 r.target) :=
    (latin1_utf8_iff _).mpr fun c hc => (hforward.target c hc).1
  have hheaders := (headers_kept_iff hwell hvm).mpr hforward.values
  change IncomingMessage.mk _ _ _ _ = IncomingMessage.mk _ _ _ _
  rw [IncomingMessage.mk.injEq]
  exact ⟨rfl, hurl, hheaders, rfl⟩

/-- A request that is read back could be forwarded: its method, its target and
its headers are plain. -/
theorem KeepsRequest.forwardable {a : Address} (hwell : r.WellFormed) (hvm : rule.vm = a.text)
    (h : KeepsRequest rule (.ofRequest r) (utf8 (requestData rule (.ofRequest r)) ++ r.body)) :
    Forwardable rule (.ofRequest r) := by
  obtain ⟨r', hparse, hsame⟩ := h
  have hwell' := parse_wellFormed hparse
  obtain ⟨-, hurl, hheaders, hbody⟩ := IncomingMessage.mk.inj hsame
  dsimp only [IncomingMessage.ofRequest] at hurl
  -- The target that is read ends where a space or a line end is, so that it has none.
  have hplain : ∀ c ∈ forwardedUrl rule (latin1 r.target), c.toNat ∉ [0, 10, 13, 32] := by
    intro c hc hmem
    rw [← hurl] at hc
    obtain ⟨b, hb, rfl⟩ := List.mem_map.mp hc
    rw [char_of_byte] at hmem
    obtain ⟨htarget, hspace⟩ := hwell'.target b hb
    revert hmem htarget hspace
    exact byte_forall (P := fun b => b.toNat ∈ [0, 10, 13, 32] → isTargetByte b = true → b ≠ 32 →
      False) (by decide +kernel) b
  have hne : forwardedUrl rule (latin1 r.target) ≠ [] := by
    rw [← hurl]
    exact fun h => hwell'.targetNonempty (List.map_eq_nil_iff.mp h)
  rw [parse_forwarded hwell hvm hne hplain] at hparse
  obtain ⟨frame, hframe, hparse⟩ := Option.bind_eq_some_iff.mp hparse
  obtain ⟨⟨body, behind⟩, hread, hparse⟩ := Option.map_eq_some_iff.mp hparse
  obtain ⟨rfl, rfl⟩ := Prod.mk.inj hparse
  dsimp only at hread hurl hheaders hbody
  obtain rfl : body = r.body := hbody
  rw [readBody_eq_iff] at hread
  refine ⟨fun c hc => ⟨(latin1_utf8_iff _).mp hurl c hc, hplain c hc⟩,
    (headers_kept_iff hwell hvm).mp hheaders, fun header hheader hcoding => ?_⟩
  obtain ⟨field, hfield, rfl⟩ := List.mem_map.mp hheader
  have hforwarded : fieldOf (Prod.map latin1 latin1 field) ∈ forwardedFields rule r :=
    List.mem_map_of_mem (mem_forwardedHeaders hfield (isReplaced_of_named List.mem_cons_self hcoding))
  refine framing_of_coded hforwarded ?_ r.body.length (hread ▸ hframe)
  unfold named
  change decide ((utf8 (latin1 field.1)).map lower = transferEncoding) = true
  rw [fieldOf_name (hwell.headers field hfield)]
  exact (named_iff transferEncoding field).mpr hcoding

/-- The routes of the VMs are kept under texts of addresses, so a rule whose
request is proxied names one. -/
theorem proxyRequest_some {registry : Registry} {req : IncomingMessage}
    (h : proxyRequest registry.texts.ipToSession rule req = some written) :
    (∃ a : Address, rule.vm = a.text) ∧ written = utf8 (requestData rule req) ++ req.body := by
  unfold proxyRequest at h
  cases hroute : get registry.texts.ipToSession rule.vm with
  | none =>
      rw [hroute] at h
      cases h
  | some session =>
      rw [hroute] at h
      obtain ⟨⟨a, session'⟩, -, heq⟩ := List.mem_map.mp (mem_of_get hroute)
      exact ⟨⟨a, (Prod.mk.inj heq).1.symm⟩, (Option.some.inj h).symm⟩

/-- A VM that is connected, at the first address of the pool. -/
def connected : Registry := ⟨[], [(poolAddress 15, 1)], {2}⟩

/-- A rule that forwards everything to it. -/
def toConnected : HttpRule where
  type := .http
  vhost := none
  path := ['/']
  targetPath := none
  vm := (poolAddress 15).text
  port := 80

/-- `Host: vm`, which a request of HTTP/1.1 has to have. -/
def hostField : Bytes × Bytes := ([72, 111, 115, 116], [118, 109])

/-- `POST / HTTP/1.1` with a `Host` and one more field, and a body of one byte. -/
def posted (name value : Bytes) : Request where
  method := [80, 79, 83, 84]
  target := [47]
  headers := [hostField, (name, value)]
  body := [97]

/-- How a client sends it: a length or chunks, and what they frame. -/
def postedAs (name value body : Bytes) : Bytes :=
  writeHead [[80, 79, 83, 84, 32, 47, 32] ++ version 49, hostField.1 ++ 58 :: 32 :: hostField.2,
    name ++ 58 :: 32 :: value] body

/-- `chunked`, as the value of a field. -/
def chunkedCoding : Bytes := [99, 104, 117, 110, 107, 101, 100]

theorem proxyRequest_posted (name value : Bytes) : ∃ written,
    proxyRequest connected.texts.ipToSession toConnected (.ofRequest (posted name value)) =
      some written := by
  have hroute : get connected.texts.ipToSession toConnected.vm = some 1 := by decide
  unfold proxyRequest
  rw [hroute]
  exact ⟨_, rfl⟩

/-- A request with a length and a plain value in its field can be forwarded. -/
theorem forwardable_posted {value : Bytes} (hvalue : ∀ b ∈ value, b.toNat < 128) :
    Forwardable toConnected (.ofRequest (posted contentLength value)) where
  target := by
    intro c hc
    have hurl : forwardedUrl toConnected (latin1 [47]) = ['/'] := by decide
    have hc' : c ∈ forwardedUrl toConnected (latin1 [47]) := hc
    rw [hurl] at hc'
    rw [List.mem_singleton.mp hc']
    decide
  values := by
    intro header hheader _
    obtain rfl | hheader := List.mem_cons.mp hheader
    · exact latin1_ascii (by simp)
    · rw [List.mem_singleton.mp hheader]
      exact latin1_ascii hvalue
  coding := by
    intro header hheader
    obtain rfl | hheader := List.mem_cons.mp hheader
    · decide
    · rw [List.mem_singleton.mp hheader]
      change toLowerCase (latin1 contentLength) ≠ latin1 transferEncoding
      decide

end RootlessRelay

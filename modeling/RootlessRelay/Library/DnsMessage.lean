import Mathlib.Data.List.Basic
import Mathlib.Data.Nat.Basic
import Mathlib.Order.Basic

/-!
# DNS messages

What the bytes of a message mean, with compressed names expanded. A name that
follows a pointer depends on bytes elsewhere in the message: next to what is
read, every relation says up to which position pointers have been followed
(`reach`). Bytes that are moved keep their meaning as long as what their
pointers reach stays in place.

The relations are deterministic (`NameAt.unique` and what is built on it), so
that a message decodes in one way at most. They do not say how a reader
proceeds; a reader that skips names without expanding them is compared with them
elsewhere. The second half is about editing: a message from which answers are
deleted still decodes, to itself without those answers, if no name that stays
reaches the bytes that have moved (`Parsed.Anchored`).
-/

namespace DnsMessage

/-- The labels of a name, without the empty one at its end. -/
abbrev Name := List (List UInt8)

/-- The byte at an index, and zero behind the end. -/
def byte (m : List UInt8) (i : Nat) : Nat := (m.getD i 0).toNat

/-- The two bytes at an index as a number. -/
def word (m : List UInt8) (i : Nat) : Nat := byte m i * 256 + byte m (i + 1)

/-- The four bytes at an index as a number. -/
def long (m : List UInt8) (i : Nat) : Nat := word m i * 65536 + word m (i + 2)

/-- The bytes from `start` up to `stop`, as far as there are any. -/
def slice (m : List UInt8) (start stop : Nat) : List UInt8 := (m.take stop).drop start

/-- The name at an offset, the offset behind it, and its reach. A pointer leads
to a name anywhere behind the header. -/
inductive NameAt (m : List UInt8) : Nat → Name → Nat → Nat → Prop
  | root {off : Nat} (zero : m[off]? = some 0) : NameAt m off [] (off + 1) 0
  | label {off next reach : Nat} {length : UInt8} {rest : Name} (head : m[off]? = some length)
      (positive : 0 < length.toNat) (short : length.toNat < 64)
      (tail : NameAt m (off + 1 + length.toNat) rest next reach) :
      NameAt m off (slice m (off + 1) (off + 1 + length.toNat) :: rest) next reach
  | pointer {off next reach : Nat} {high low : UInt8} {name : Name} (first : m[off]? = some high)
      (marked : 192 ≤ high.toNat) (second : m[off + 1]? = some low)
      (body : 12 ≤ (high.toNat - 192) * 256 + low.toNat)
      (target : NameAt m ((high.toNat - 192) * 256 + low.toNat) name next reach) :
      NameAt m off name (off + 2) (max reach next)

/-- The parts of record data, by type: where names may be compressed. Everything
else is bytes that mean the same wherever they stand. -/
inductive Field
  | name
  | bytes (n : Nat)
  | rest

/-- What a part of record data comes to: the labels of a name, or bytes. -/
inductive Piece
  | name (labels : Name)
  | bytes (data : List UInt8)
  deriving DecidableEq

/-- The parts of the data of NS, MD, MF, CNAME, MB, MG, MR and PTR; of SOA; of
MINFO; of MX; and of all other types, whose data is taken as bytes. -/
def layout (type : Nat) : List Field :=
  if type ∈ [2, 3, 4, 5, 7, 8, 9, 12] then [.name]
  else if type = 6 then [.name, .name, .bytes 20]
  else if type = 14 then [.name, .name]
  else if type = 15 then [.bytes 2, .name]
  else [.rest]

/-- Record data that ends at `stop`, and its reach. The parts fill the data
exactly: what is left belongs to the last of them. -/
inductive FieldsAt (m : List UInt8) (stop : Nat) : List Field → Nat → List Piece → Nat → Prop
  | nil : FieldsAt m stop [] stop [] 0
  | name {off next reach reach' : Nat} {labels : Name} {fields : List Field} {pieces : List Piece}
      (head : NameAt m off labels next reach) (tail : FieldsAt m stop fields next pieces reach') :
      FieldsAt m stop (.name :: fields) off (.name labels :: pieces) (max reach reach')
  | bytes {off n reach : Nat} {fields : List Field} {pieces : List Piece}
      (tail : FieldsAt m stop fields (off + n) pieces reach) :
      FieldsAt m stop (.bytes n :: fields) off (.bytes (slice m off (off + n)) :: pieces) reach
  | rest {off : Nat} (fits : off ≤ stop) :
      FieldsAt m stop [.rest] off [.bytes (slice m off stop)] 0

/-- A question: the name asked for, its type and its class. -/
structure Question where
  name : Name
  type : Nat
  cls : Nat

/-- A resource record, with its data taken apart as the type asks. -/
structure Record where
  owner : Name
  type : Nat
  cls : Nat
  ttl : Nat
  data : List Piece

/-- What a message means, its sections in their order. -/
structure Message where
  id : Nat
  flags : Nat
  questions : List Question
  answers : List Record
  authority : List Record
  additional : List Record

/-- The question at an offset, where it stops, and how far its name reaches. It
lies within the message. -/
structure QuestionAt (m : List UInt8) (off : Nat) (q : Question) (stop reach : Nat) : Prop where
  name : ∃ next, NameAt m off q.name next reach ∧ stop = next + 4 ∧
    q.type = word m next ∧ q.cls = word m (next + 2)
  fits : stop ≤ m.length

/-- The record at an offset, where it stops, and how far its names reach: that
of its owner, and those in its data. -/
structure RecordAt (m : List UInt8) (off : Nat) (r : Record) (stop reach : Nat) : Prop where
  body : ∃ next owned held, NameAt m off r.owner next owned ∧
    stop = next + 10 + word m (next + 8) ∧ reach = max owned held ∧
    r.type = word m next ∧ r.cls = word m (next + 2) ∧ r.ttl = long m (next + 4) ∧
    FieldsAt m stop (layout r.type) (next + 10) r.data held
  fits : stop ≤ m.length

/-- An item of a section with its place in the message, and with the reach of
its names. -/
structure Located (α : Type) where
  value : α
  start : Nat
  stop : Nat
  reach : Nat

/-- Items one behind another, each of them starting where the one before it
stops. -/
inductive SectionAt {α : Type} (item : Nat → α → Nat → Nat → Prop) :
    Nat → List (Located α) → Nat → Prop
  | nil {off : Nat} : SectionAt item off [] off
  | cons {off stop reach next : Nat} {value : α} {rest : List (Located α)}
      (head : item off value stop reach) (tail : SectionAt item stop rest next) :
      SectionAt item off (⟨value, off, stop, reach⟩ :: rest) next

/-- The parts of a message, with their places. -/
structure Parsed where
  id : Nat
  flags : Nat
  questions : List (Located Question)
  answers : List (Located Record)
  authority : List (Located Record)
  additional : List (Located Record)

/-- A well-formed message and its parts. Each section has as many items as the
header announces, and the last one ends with the message. -/
structure Parses (m : List UInt8) (p : Parsed) : Prop where
  header : 12 ≤ m.length
  id : p.id = word m 0
  flags : p.flags = word m 2
  questions : p.questions.length = word m 4
  answers : p.answers.length = word m 6
  authority : p.authority.length = word m 8
  additional : p.additional.length = word m 10
  sections : ∃ a b c, SectionAt (QuestionAt m) 12 p.questions a ∧
    SectionAt (RecordAt m) a p.answers b ∧ SectionAt (RecordAt m) b p.authority c ∧
    SectionAt (RecordAt m) c p.additional m.length

/-- What the parts mean, their places forgotten. -/
def Parsed.message (p : Parsed) : Message where
  id := p.id
  flags := p.flags
  questions := p.questions.map Located.value
  answers := p.answers.map Located.value
  authority := p.authority.map Located.value
  additional := p.additional.map Located.value

/-- `m` is well formed and means `msg`. There is one such `msg` at most. -/
def Decodes (m : List UInt8) (msg : Message) : Prop := ∃ p, Parses m p ∧ p.message = msg

variable {m m' : List UInt8} {off off' next next' stop stop' reach reach' d cut : Nat}
  {name name' : Name}

/-- A name is read in one way only: the first byte tells a label from the end
and from a pointer. -/
theorem NameAt.unique (h : NameAt m off name next reach) (h' : NameAt m off name' next' reach') :
    name = name' ∧ next = next' ∧ reach = reach' := by
  induction h generalizing name' next' reach' with
  | root zero =>
      cases h' with
      | root => exact ⟨rfl, rfl, rfl⟩
      | label head positive =>
          cases zero.symm.trans head
          exact absurd positive (by decide)
      | pointer first marked =>
          cases zero.symm.trans first
          exact absurd marked (by decide)
  | label head positive short tail ih =>
      cases h' with
      | root zero =>
          cases zero.symm.trans head
          exact absurd positive (by decide)
      | label head' _ _ tail' =>
          cases head.symm.trans head'
          obtain ⟨rfl, rfl, rfl⟩ := ih tail'
          exact ⟨rfl, rfl, rfl⟩
      | pointer first marked =>
          cases head.symm.trans first
          omega
  | pointer first marked second body target ih =>
      cases h' with
      | root zero =>
          cases zero.symm.trans first
          exact absurd marked (by decide)
      | label head positive short =>
          cases head.symm.trans first
          omega
      | pointer first' _ second' _ target' =>
          cases first.symm.trans first'
          cases second.symm.trans second'
          obtain ⟨rfl, rfl, rfl⟩ := ih target'
          exact ⟨rfl, rfl, rfl⟩

/-- The fields of a record are found in one way, as each says where the next
begins. -/
theorem FieldsAt.unique {fields : List Field} {pieces pieces' : List Piece}
    (h : FieldsAt m stop fields off pieces reach) (h' : FieldsAt m stop fields off pieces' reach') :
    pieces = pieces' ∧ reach = reach' := by
  induction h generalizing pieces' reach' with
  | nil =>
      cases h'
      exact ⟨rfl, rfl⟩
  | name head tail ih =>
      cases h' with
      | name head' tail' =>
          obtain ⟨rfl, rfl, rfl⟩ := head.unique head'
          obtain ⟨rfl, rfl⟩ := ih tail'
          exact ⟨rfl, rfl⟩
  | bytes tail ih =>
      cases h' with
      | bytes tail' =>
          obtain ⟨rfl, rfl⟩ := ih tail'
          exact ⟨rfl, rfl⟩
  | rest fits =>
      cases h'
      exact ⟨rfl, rfl⟩

theorem QuestionAt.unique {q q' : Question} (h : QuestionAt m off q stop reach)
    (h' : QuestionAt m off q' stop' reach') : q = q' ∧ stop = stop' ∧ reach = reach' := by
  obtain ⟨⟨next, hname, rfl, htype, hcls⟩, -⟩ := h
  obtain ⟨⟨next', hname', rfl, htype', hcls'⟩, -⟩ := h'
  obtain ⟨hlabels, rfl, rfl⟩ := hname.unique hname'
  obtain ⟨labels, type, cls⟩ := q
  obtain ⟨labels', type', cls'⟩ := q'
  dsimp only at *
  rw [hlabels, htype, htype', hcls, hcls']
  exact ⟨rfl, rfl, rfl⟩

theorem RecordAt.unique {r r' : Record} (h : RecordAt m off r stop reach)
    (h' : RecordAt m off r' stop' reach') : r = r' ∧ stop = stop' ∧ reach = reach' := by
  obtain ⟨⟨next, owned, held, hname, rfl, rfl, htype, hcls, httl, hdata⟩, -⟩ := h
  obtain ⟨⟨next', owned', held', hname', rfl, rfl, htype', hcls', httl', hdata'⟩, -⟩ := h'
  obtain ⟨howner, rfl, rfl⟩ := hname.unique hname'
  obtain ⟨owner, type, cls, ttl, data⟩ := r
  obtain ⟨owner', type', cls', ttl', data'⟩ := r'
  dsimp only at *
  subst howner htype hcls httl htype' hcls' httl'
  obtain ⟨rfl, rfl⟩ := hdata.unique hdata'
  exact ⟨rfl, rfl, rfl⟩

/-- A section of items is read in one way if an item is. -/
theorem SectionAt.unique {α : Type} {item : Nat → α → Nat → Nat → Prop}
    (unique : ∀ off value stop reach value' stop' reach', item off value stop reach →
      item off value' stop' reach' → value = value' ∧ stop = stop' ∧ reach = reach')
    {items items' : List (Located α)} (h : SectionAt item off items stop)
    (h' : SectionAt item off items' stop') (hlength : items.length = items'.length) :
    items = items' ∧ stop = stop' := by
  induction h generalizing items' with
  | nil =>
      obtain rfl := List.eq_nil_of_length_eq_zero hlength.symm
      cases h'
      exact ⟨rfl, rfl⟩
  | cons head tail ih =>
      cases h' with
      | nil => cases hlength
      | cons head' tail' =>
          obtain ⟨rfl, rfl, rfl⟩ := unique _ _ _ _ _ _ _ head head'
          obtain ⟨rfl, rfl⟩ := ih tail' (Nat.succ.inj hlength)
          exact ⟨rfl, rfl⟩

/-- A message has at most one reading, since the header fixes the number of
items in each section. -/
theorem Parses.unique {p p' : Parsed} (h : Parses m p) (h' : Parses m p') : p = p' := by
  obtain ⟨-, hid, hflags, hq, han, hns, har, a, b, c, hqs, hans, hauth, hadd⟩ := h
  obtain ⟨-, hid', hflags', hq', han', hns', har', a', b', c', hqs', hans', hauth', hadd'⟩ := h'
  have hrecord := fun off value stop reach value' stop' reach' =>
    @RecordAt.unique m off stop stop' reach reach' value value'
  have hquestion := fun off value stop reach value' stop' reach' =>
    @QuestionAt.unique m off stop stop' reach reach' value value'
  obtain ⟨hquestions, rfl⟩ := hqs.unique hquestion hqs' (hq.trans hq'.symm)
  obtain ⟨hanswers, rfl⟩ := hans.unique hrecord hans' (han.trans han'.symm)
  obtain ⟨hauthority, rfl⟩ := hauth.unique hrecord hauth' (hns.trans hns'.symm)
  obtain ⟨hadditional, -⟩ := hadd.unique hrecord hadd' (har.trans har'.symm)
  cases p
  cases p'
  dsimp only at *
  subst hid hflags hid' hflags' hquestions hanswers hauthority hadditional
  rfl

theorem Decodes.unique {msg msg' : Message} (h : Decodes m msg) (h' : Decodes m msg') :
    msg = msg' := by
  obtain ⟨p, hp, rfl⟩ := h
  obtain ⟨p', hp', rfl⟩ := h'
  rw [hp.unique hp']

/-- The bytes of `m` from `start` up to `stop` stand `d` positions earlier in
`m'`. With a distance of zero they have stayed where they were. -/
structure Moved (m m' : List UInt8) (d start stop : Nat) : Prop where
  le : d ≤ start
  same : ∀ i, start ≤ i → i < stop → m'[i - d]? = m[i]?

theorem Moved.sub {start start' : Nat} (h : Moved m m' d start stop) (hstart : start ≤ start')
    (hstop : stop' ≤ stop) : Moved m m' d start' stop' :=
  ⟨h.le.trans hstart, fun i hlow hhigh =>
    h.same i (hstart.trans hlow) (Nat.lt_of_lt_of_le hhigh hstop)⟩

theorem Moved.byte {start i : Nat} (h : Moved m m' d start stop) (hlow : start ≤ i)
    (hhigh : i < stop) : byte m' (i - d) = byte m i := by
  rw [DnsMessage.byte, DnsMessage.byte, List.getD_eq_getElem?_getD, List.getD_eq_getElem?_getD,
    h.same i hlow hhigh]

theorem Moved.word {start i : Nat} (h : Moved m m' d start stop) (hlow : start ≤ i)
    (hhigh : i + 2 ≤ stop) : word m' (i - d) = word m i := by
  have hle := h.le
  have hsecond := h.byte (i := i + 1) (by omega) (by omega)
  rw [Nat.sub_add_comm (hle.trans hlow)] at hsecond
  rw [DnsMessage.word, DnsMessage.word, h.byte hlow (by omega), hsecond]

theorem Moved.long {start i : Nat} (h : Moved m m' d start stop) (hlow : start ≤ i)
    (hhigh : i + 4 ≤ stop) : long m' (i - d) = long m i := by
  have hle := h.le
  have hsecond := h.word (i := i + 2) (by omega) (by omega)
  rw [Nat.sub_add_comm (hle.trans hlow)] at hsecond
  rw [DnsMessage.long, DnsMessage.long, h.word hlow (by omega), hsecond]

theorem getElem?_slice (m : List UInt8) (start stop k : Nat) :
    (slice m start stop)[k]? = if start + k < stop then m[start + k]? else none := by
  rw [slice, List.getElem?_drop, List.getElem?_take]

theorem Moved.slice {start i j : Nat} (h : Moved m m' d start stop) (hlow : start ≤ i)
    (hhigh : j ≤ stop) : slice m' (i - d) (j - d) = slice m i j := by
  refine List.ext_getElem? fun k => ?_
  have hle := h.le
  rw [getElem?_slice, getElem?_slice]
  by_cases hk : i + k < j
  · have hmoved := h.same (i + k) (by omega) (by omega)
    rw [if_pos hk, if_pos (by omega), ← hmoved]
    congr 1
    omega
  · rw [if_neg hk, if_neg (by omega)]

/-- The last of the bytes is still there, so `m'` is long enough for all of
them. -/
theorem Moved.stop_le {start : Nat} (h : Moved m m' d start stop) (hlt : start < stop)
    (hstop : stop ≤ m.length) : stop - d ≤ m'.length := by
  have hle := h.le
  have hlast := h.same (stop - 1) (by omega) (by omega)
  have hin : stop - 1 < m.length := by omega
  rw [List.getElem?_eq_getElem hin] at hlast
  have hin' := (List.getElem?_eq_some_iff.mp hlast).1
  omega

theorem NameAt.lt (h : NameAt m off name next reach) : off < next := by
  induction h with
  | root => exact Nat.lt_succ_self _
  | label head positive short tail ih => omega
  | pointer => omega

/-- A name that is moved is still the same name, if the bytes that its pointers
reach are where they were. -/
theorem NameAt.move (hlow : Moved m m' 0 12 cut) (h : NameAt m off name next reach)
    (hmoved : Moved m m' d off next) (hreach : reach ≤ cut) :
    NameAt m' (off - d) name (next - d) reach := by
  induction h generalizing d with
  | @root off zero =>
      have hle := hmoved.le
      rw [Nat.sub_add_comm hle]
      exact .root ((hmoved.same off (Nat.le_refl _) (Nat.lt_succ_self _)).trans zero)
  | @label off next reach length rest head positive short tail ih =>
      have hle := hmoved.le
      have hlt := tail.lt
      have htail := ih (hmoved.sub (by omega) (Nat.le_refl _)) hreach
      have hstart : off + 1 + length.toNat - d = off - d + 1 + length.toNat := by omega
      have hslice := hmoved.slice (i := off + 1) (j := off + 1 + length.toNat) (by omega) (by omega)
      rw [Nat.sub_add_comm hle, hstart] at hslice
      rw [hstart] at htail
      rw [← hslice]
      exact .label ((hmoved.same off (Nat.le_refl _) (by omega)).trans head) positive short htail
  | @pointer off next reach high low name first marked second body target ih =>
      have hle := hmoved.le
      have htarget := ih (hlow.sub body ((Nat.le_max_right _ _).trans hreach))
        ((Nat.le_max_left _ _).trans hreach)
      have hsecond := (hmoved.same (off + 1) (by omega) (by omega)).trans second
      rw [Nat.sub_add_comm hle] at hsecond
      rw [Nat.sub_add_comm hle]
      exact .pointer ((hmoved.same off (Nat.le_refl _) (by omega)).trans first) marked hsecond body
        htarget

theorem FieldsAt.le {fields : List Field} {pieces : List Piece}
    (h : FieldsAt m stop fields off pieces reach) : off ≤ stop := by
  induction h with
  | nil => exact Nat.le_refl _
  | name head tail ih => exact head.lt.le.trans ih
  | bytes tail ih => omega
  | rest fits => exact fits

/-- The fields of a record can be moved with their bytes. Pointers in them stay
valid as long as they lead below the cut. -/
theorem FieldsAt.move (hlow : Moved m m' 0 12 cut) {fields : List Field} {pieces : List Piece}
    (h : FieldsAt m stop fields off pieces reach) (hmoved : Moved m m' d off stop)
    (hreach : reach ≤ cut) : FieldsAt m' (stop - d) fields (off - d) pieces reach := by
  induction h with
  | nil => exact .nil
  | name head tail ih =>
      have hhead := head.move hlow (hmoved.sub (Nat.le_refl _) tail.le)
        ((Nat.le_max_left _ _).trans hreach)
      exact .name hhead
        (ih (hmoved.sub head.lt.le (Nat.le_refl _)) ((Nat.le_max_right _ _).trans hreach))
  | @bytes off n reach fields pieces tail ih =>
      have hle := hmoved.le
      have htail := ih (hmoved.sub (Nat.le_add_right _ _) (Nat.le_refl _)) hreach
      rw [← hmoved.slice (Nat.le_refl off) tail.le]
      rw [Nat.sub_add_comm hle] at htail ⊢
      exact .bytes htail
  | rest fits =>
      rw [← hmoved.slice (Nat.le_refl _) (Nat.le_refl _)]
      exact .rest (Nat.sub_le_sub_right fits d)

theorem QuestionAt.lt {q : Question} (h : QuestionAt m off q stop reach) : off < stop := by
  obtain ⟨⟨next, hname, rfl, -⟩, -⟩ := h
  have := hname.lt
  omega

theorem QuestionAt.move (hlow : Moved m m' 0 12 cut) {q : Question}
    (h : QuestionAt m off q stop reach) (hmoved : Moved m m' d off stop) (hreach : reach ≤ cut) :
    QuestionAt m' (off - d) q (stop - d) reach := by
  have hlt := h.lt
  obtain ⟨⟨next, hname, rfl, htype, hcls⟩, hfits⟩ := h
  have hle := hmoved.le
  have hnext := hname.lt
  refine ⟨⟨next - d, hname.move hlow (hmoved.sub (Nat.le_refl _) (by omega)) hreach, by omega, ?_, ?_⟩,
    hmoved.stop_le hlt hfits⟩
  · rw [htype, hmoved.word (by omega) (by omega)]
  · rw [hcls, ← hmoved.word (i := next + 2) (by omega) (by omega), Nat.sub_add_comm (by omega)]

theorem RecordAt.lt {r : Record} (h : RecordAt m off r stop reach) : off < stop := by
  obtain ⟨⟨next, owned, held, hname, rfl, -⟩, -⟩ := h
  have := hname.lt
  omega

/-- The same for a record: its name, the ten bytes behind it, and its data. -/
theorem RecordAt.move (hlow : Moved m m' 0 12 cut) {r : Record}
    (h : RecordAt m off r stop reach) (hmoved : Moved m m' d off stop) (hreach : reach ≤ cut) :
    RecordAt m' (off - d) r (stop - d) reach := by
  have hlt := h.lt
  obtain ⟨⟨next, owned, held, hname, hstop, rfl, htype, hcls, httl, hdata⟩, hfits⟩ := h
  have hle := hmoved.le
  have hnext := hname.lt
  have hword : ∀ k, k + 2 ≤ 10 → word m' (next - d + k) = word m (next + k) := by
    intro k hk
    rw [← hmoved.word (i := next + k) (by omega) (by omega), Nat.sub_add_comm (by omega)]
  have hfields := hdata.move hlow (hmoved.sub (by omega) (Nat.le_refl _))
    ((Nat.le_max_right _ _).trans hreach)
  rw [Nat.sub_add_comm (by omega)] at hfields
  refine ⟨⟨next - d, owned, held, hname.move hlow (hmoved.sub (Nat.le_refl _) (by omega))
    ((Nat.le_max_left _ _).trans hreach), ?_, rfl, ?_, ?_, ?_, hfields⟩, hmoved.stop_le hlt hfits⟩
  · rw [hword 8 (by omega)]
    omega
  · exact htype.trans (hword 0 (by omega)).symm
  · exact hcls.trans (hword 2 (by omega)).symm
  · rw [httl, ← hmoved.long (i := next + 4) (by omega) (by omega), Nat.sub_add_comm (by omega)]

/-- The item with its place moved forward; its reach stays, since pointers name
fixed positions. -/
def Located.shift {α : Type} (d : Nat) (l : Located α) : Located α :=
  { l with start := l.start - d, stop := l.stop - d }

section Sections

variable {α : Type} {item item' : Nat → α → Nat → Nat → Prop} {items : List (Located α)}
  {keep : α → Bool} {tail : List UInt8}

theorem SectionAt.le (lt : ∀ off value stop reach, item off value stop reach → off < stop)
    (h : SectionAt item off items stop) : off ≤ stop := by
  induction h with
  | nil => exact Nat.le_refl _
  | cons head tail ih => exact (lt _ _ _ _ head).le.trans ih

/-- A section that is moved as a whole, by the same distance for all its items.
The induction needs only that one item can be moved. -/
theorem SectionAt.move (lt : ∀ off value stop reach, item off value stop reach → off < stop)
    (move : ∀ off value stop reach, item off value stop reach → Moved m m' d off stop →
      reach ≤ cut → item' (off - d) value (stop - d) reach)
    (h : SectionAt item off items stop) (hmoved : Moved m m' d off stop)
    (hreach : ∀ l ∈ items, l.reach ≤ cut) :
    SectionAt item' (off - d) (items.map (Located.shift d)) (stop - d) := by
  induction h with
  | nil => exact .nil
  | cons head tail ih =>
      obtain ⟨hfirst, hrest⟩ := List.forall_mem_cons.mp hreach
      have hhead := move _ _ _ _ head (hmoved.sub (Nat.le_refl _) (tail.le lt)) hfirst
      exact .cons hhead (ih (hmoved.sub (lt _ _ _ _ head).le (Nat.le_refl _)) hrest)

/-- The bytes of the items that are kept, one item behind another. -/
def kept (m : List UInt8) (keep : α → Bool) (items : List (Located α)) : List UInt8 :=
  (items.filter fun l => keep l.value).flatMap fun l => slice m l.start l.stop

theorem kept_cons (m : List UInt8) (keep : α → Bool) (l : Located α) (items : List (Located α)) :
    kept m keep (l :: items) =
      (if keep l.value then slice m l.start l.stop else []) ++ kept m keep items := by
  unfold kept
  rw [List.filter_cons]
  cases keep l.value <;> rfl

theorem length_slice (m : List UInt8) (start : Nat) (hstop : stop ≤ m.length) :
    (slice m start stop).length = stop - start := by
  rw [slice, List.length_drop, List.length_take, Nat.min_eq_left hstop]

/-- Bytes that stand where `m'` goes on: a view of `m` with more behind it. -/
theorem Moved.of_drop {start : Nat} (hd : d ≤ start) (hstop : stop ≤ m.length)
    (hdrop : m'.drop (start - d) = DnsMessage.slice m start stop ++ tail) : Moved m m' d start stop := by
  refine ⟨hd, fun i hlow hhigh => ?_⟩
  have hi : m'[i - d]? = (m'.drop (start - d))[i - start]? := by
    rw [List.getElem?_drop]
    congr 1
    omega
  rw [hi, hdrop, List.getElem?_append_left (by rw [length_slice m start hstop]; omega),
    getElem?_slice, if_pos (by omega)]
  congr 1
  omega

theorem drop_of_drop_append {n k : Nat} {front : List UInt8} (h : m.drop n = front ++ tail)
    (hk : front.length = k) : m.drop (n + k) = tail := by
  rw [← List.drop_drop, h, ← hk, List.drop_left]

/-- A section from which items are deleted: those that are kept follow each
other. The distance they move grows with each item that is deleted in front of
them. -/
theorem SectionAt.delete (lt : ∀ off value stop reach, item off value stop reach → off < stop)
    (fits : ∀ off value stop reach, item off value stop reach → stop ≤ m.length)
    (move : ∀ d off value stop reach, item off value stop reach → Moved m m' d off stop →
      reach ≤ cut → item' (off - d) value (stop - d) reach)
    (h : SectionAt item off items stop) (hd : d ≤ off)
    (hdrop : m'.drop (off - d) = kept m keep items ++ tail)
    (hreach : ∀ l ∈ items, keep l.value = true → l.reach ≤ cut) :
    ∃ items' d', d' ≤ stop ∧ SectionAt item' (off - d) items' (stop - d') ∧
      items'.map Located.value = (items.map Located.value).filter keep ∧
      m'.drop (stop - d') = tail := by
  induction h generalizing d with
  | nil => exact ⟨[], d, hd, .nil, rfl, hdrop⟩
  | @cons off stop reach next value rest head hrest ih =>
      obtain ⟨hfirst, hreach⟩ := List.forall_mem_cons.mp hreach
      have hlt := lt _ _ _ _ head
      rw [kept_cons] at hdrop
      dsimp only at hdrop hfirst
      cases hkeep : keep value with
      | true =>
          rw [hkeep, if_pos rfl, List.append_assoc] at hdrop
          have hmoved := Moved.of_drop hd (fits _ _ _ _ head) hdrop
          have hnext := drop_of_drop_append hdrop (length_slice m off (fits _ _ _ _ head))
          have hpos : off - d + (stop - off) = stop - d := by omega
          rw [hpos] at hnext
          obtain ⟨items', d', hd', hitems, hvalues, htail⟩ :=
            ih (d := d) (by omega) hnext hreach
          refine ⟨⟨value, off - d, stop - d, reach⟩ :: items', d', hd',
            .cons (move _ _ _ _ _ head hmoved (hfirst hkeep)) hitems, ?_, htail⟩
          rw [List.map_cons, List.map_cons, List.filter_cons_of_pos hkeep, hvalues]
      | false =>
          rw [hkeep, if_neg Bool.false_ne_true, List.nil_append] at hdrop
          have hpos : off - d = stop - (d + (stop - off)) := by omega
          rw [hpos] at hdrop ⊢
          obtain ⟨items', d', hd', hitems, hvalues, htail⟩ :=
            ih (d := d + (stop - off)) (by omega) hdrop hreach
          refine ⟨items', d', hd', hitems, ?_, htail⟩
          rw [List.map_cons, List.filter_cons_of_neg (by simp [hkeep]), hvalues]

/-- Where the first item that is not kept starts; `stop` if all are kept.
Everything in front of it stays in place. -/
def firstDeleted (keep : α → Bool) (items : List (Located α)) (stop : Nat) : Nat :=
  ((items.find? fun l => !keep l.value).map Located.start).getD stop

/-- Up to the first deleted item nothing has moved, whatever is deleted behind
it. -/
theorem SectionAt.unmoved (lt : ∀ off value stop reach, item off value stop reach → off < stop)
    (fits : ∀ off value stop reach, item off value stop reach → stop ≤ m.length)
    (h : SectionAt item off items stop)
    (hdrop : m'.drop off = kept m keep items ++ m.drop stop) :
    Moved m m' 0 off (firstDeleted keep items m.length) := by
  induction h with
  | @nil off =>
      refine ⟨Nat.zero_le _, fun i hlow _ => ?_⟩
      have hnil : m'.drop off = m.drop off := hdrop
      have hsame : (m'.drop off)[i - off]? = (m.drop off)[i - off]? := by rw [hnil]
      rwa [List.getElem?_drop, List.getElem?_drop, Nat.add_sub_cancel' hlow] at hsame
  | @cons off stop reach next value rest head hrest ih =>
      have hlt := lt _ _ _ _ head
      rw [kept_cons] at hdrop
      dsimp only at hdrop
      cases hkeep : keep value with
      | false =>
          refine ⟨Nat.zero_le _, fun i hlow hhigh => ?_⟩
          rw [firstDeleted, List.find?_cons_of_pos (by simp [hkeep])] at hhigh
          exact absurd hhigh (Nat.not_lt.mpr hlow)
      | true =>
          rw [hkeep, if_pos rfl, List.append_assoc] at hdrop
          have hstop := fits _ _ _ _ head
          have hmoved := Moved.of_drop (Nat.zero_le off) hstop hdrop
          have hnext := drop_of_drop_append hdrop (length_slice m off hstop)
          rw [Nat.add_sub_cancel' hlt.le] at hnext
          have hlater := ih hnext
          refine ⟨Nat.zero_le _, fun i hlow hhigh => ?_⟩
          rw [firstDeleted, List.find?_cons_of_neg (by simp [hkeep])] at hhigh
          by_cases hi : i < stop
          · exact hmoved.same i hlow hi
          · exact hlater.same i (Nat.not_lt.mp hi) hhigh

theorem SectionAt.stop_le (fits : ∀ off value stop reach, item off value stop reach →
    stop ≤ m.length) (h : SectionAt item off items stop) (hoff : off ≤ m.length) :
    stop ≤ m.length := by
  induction h with
  | nil => exact hoff
  | cons head tail ih => exact ih (fits _ _ _ _ head)

theorem map_value_shift (d : Nat) (items : List (Located α)) :
    (items.map (Located.shift d)).map Located.value = items.map Located.value := by
  rw [List.map_map]
  rfl

end Sections

variable {p : Parsed} {keep : Record → Bool}

/-- No name that is kept reaches the first deleted answer, or what comes behind
it. Pointers into what is moved would lead somewhere else. -/
structure Parsed.Anchored (p : Parsed) (keep : Record → Bool) (length : Nat) : Prop where
  questions : ∀ q ∈ p.questions, q.reach ≤ firstDeleted keep p.answers length
  answers : ∀ r ∈ p.answers, keep r.value = true → r.reach ≤ firstDeleted keep p.answers length
  authority : ∀ r ∈ p.authority, r.reach ≤ firstDeleted keep p.answers length
  additional : ∀ r ∈ p.additional, r.reach ≤ firstDeleted keep p.answers length

/-- `m'` is `m` without the bytes of the answers that are not kept, and counts
those that are. The rest of the header is as it was. -/
structure Deletes (m m' : List UInt8) (p : Parsed) (keep : Record → Bool) : Prop where
  header : 12 ≤ m'.length
  counts : ∀ i ∈ [0, 2, 4, 8, 10], word m' i = word m i
  answers : word m' 6 = (p.answers.filter fun r => keep r.value).length
  body : ∀ a b, SectionAt (QuestionAt m) 12 p.questions a → SectionAt (RecordAt m) a p.answers b →
    m'.drop 12 = slice m 12 a ++ (kept m keep p.answers ++ m.drop b)

/-- Deleting answers keeps the meaning of all the rest, as long as no pointer of
the rest leads to what has moved. -/
theorem Parses.delete (h : Parses m p) (hdeletes : Deletes m m' p keep)
    (hanchored : p.Anchored keep m.length) :
    Decodes m' { p.message with answers := p.message.answers.filter keep } := by
  obtain ⟨hheader, hid, hflags, hqd, han, hns, har, a, b, c, hquestions, hanswers, hauthority,
    hadditional⟩ := h
  have hqlt := fun off value stop reach => @QuestionAt.lt m off stop reach value
  have hrlt := fun off value stop reach => @RecordAt.lt m off stop reach value
  have hqfits : ∀ m off value stop reach, QuestionAt m off value stop reach → stop ≤ m.length :=
    fun _ _ _ _ _ hitem => hitem.fits
  have hrfits : ∀ m off value stop reach, RecordAt m off value stop reach → stop ≤ m.length :=
    fun _ _ _ _ _ hitem => hitem.fits
  have ha := hquestions.stop_le (hqfits m) hheader
  have hb := hanswers.stop_le (hrfits m) ha
  have hbody := hdeletes.body a b hquestions hanswers
  have h12 := hquestions.le hqlt
  have hfirst := Moved.of_drop (Nat.zero_le 12) ha hbody
  have hafter := drop_of_drop_append hbody (length_slice m 12 ha)
  rw [Nat.add_sub_cancel' h12] at hafter
  have hunmoved := hanswers.unmoved hrlt (hrfits m) hafter
  have hlow : Moved m m' 0 12 (firstDeleted keep p.answers m.length) := by
    refine ⟨Nat.zero_le _, fun i hi hhigh => ?_⟩
    by_cases hia : i < a
    · exact hfirst.same i hi hia
    · exact hunmoved.same i (Nat.not_lt.mp hia) hhigh
  have hquestions' := hquestions.move hqlt
    (fun _ _ _ _ hitem hmoved hreach => hitem.move hlow hmoved hreach) hfirst hanchored.questions
  obtain ⟨answers', d, hd, hanswers', hvalues, hrest⟩ := hanswers.delete hrlt (hrfits m)
    (fun _ _ _ _ _ hitem hmoved hreach => hitem.move hlow hmoved hreach) (Nat.zero_le a) hafter
    hanchored.answers
  have htail : m'.drop (b - d) = slice m b m.length ++ [] := by
    rw [hrest, slice, List.take_length, List.append_nil]
  have htail : Moved m m' d b m.length := Moved.of_drop hd (Nat.le_refl _) htail
  have hc := hadditional.le hrlt
  have hauthority' := hauthority.move hrlt
    (fun _ _ _ _ hitem hmoved hreach => hitem.move hlow hmoved hreach)
    (htail.sub (Nat.le_refl _) hc) hanchored.authority
  have hadditional' := hadditional.move hrlt
    (fun _ _ _ _ hitem hmoved hreach => hitem.move hlow hmoved hreach)
    (htail.sub (hauthority.le hrlt) (Nat.le_refl _)) hanchored.additional
  have hend : m.length - d = m'.length := by
    have ha' := hquestions'.stop_le (hqfits m') hdeletes.header
    have hb' := hanswers'.stop_le (hrfits m') ha'
    have hlength := congrArg List.length hrest
    rw [List.length_drop, List.length_drop] at hlength
    omega
  rw [hend] at hadditional'
  refine ⟨⟨p.id, p.flags, p.questions.map (Located.shift 0), answers',
    p.authority.map (Located.shift d), p.additional.map (Located.shift d)⟩,
    ⟨hdeletes.header, ?_, ?_, ?_, ?_, ?_, ?_, a, b - d, c - d, hquestions', hanswers', hauthority',
      hadditional'⟩, ?_⟩
  · rw [hid, hdeletes.counts 0 (by decide)]
  · rw [hflags, hdeletes.counts 2 (by decide)]
  · rw [List.length_map, hqd, hdeletes.counts 4 (by decide)]
  · have hlength := congrArg List.length hvalues
    rw [List.length_map, List.filter_map, List.length_map] at hlength
    rw [hlength, hdeletes.answers]
    rfl
  · rw [List.length_map, hns, hdeletes.counts 8 (by decide)]
  · rw [List.length_map, har, hdeletes.counts 10 (by decide)]
  · simp only [Parsed.message, map_value_shift, hvalues]

end DnsMessage

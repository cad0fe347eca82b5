import RootlessRelay.Library.PrefixFree
import RootlessRelay.Net.DnsFilter

/-!
# Truncated responses

A response may end in the middle of a question or a record, announce more answers than it
has, or be no DNS message at all. `Announces` says of which responses the announced answers
can be parsed. The loops of the filter ask for less: a name is labels up to a zero byte or a
compression pointer (every byte below `0xC0` is taken for a length, and no pointer is
followed), a question has four bytes behind it, and a record has ten and as much data as
they announce. `QuestionText` and `AnswerText` describe what can be told apart in this way.

When fewer answers than announced can be told apart and one of those is kept, the packet is
rebuilt although nothing was removed from it, with a rest that starts inside a record.
-/

namespace RootlessRelay

open DnsMessage (NameAt QuestionAt RecordAt SectionAt)
open PrefixFree (Reading Unambiguous encodeAll exists_reading)

/-- The bytes of a name, as it stands in a question or a record: labels, and
then a zero byte or a pointer that is not followed. -/
inductive NameBytes : Bytes → Prop
  | root : NameBytes [0]
  | pointer {high low : UInt8} (marked : 0xC0 ≤ high.toNat) : NameBytes [high, low]
  | label {length : UInt8} {text rest : Bytes} (positive : 0 < length.toNat)
      (plain : length.toNat < 0xC0) (whole : text.length = length.toNat)
      (tail : NameBytes rest) : NameBytes (length :: (text ++ rest))

/-- The labels of the name end in a compression pointer, not in a zero byte. -/
inductive Pointed : Bytes → Prop
  | pointer {high low : UInt8} (marked : 0xC0 ≤ high.toNat) : Pointed [high, low]
  | label {length : UInt8} {text rest : Bytes} (whole : text.length = length.toNat)
      (tail : Pointed rest) : Pointed (length :: (text ++ rest))

/-- A complete question, as its bytes can be told apart. -/
structure QuestionText where
  name : Bytes
  type : Nat
  cls : Bytes
  named : NameBytes name
  typed : type ≤ 0xffff
  fixed : cls.length = 2

/-- A complete answer record, as its bytes can be told apart. Names in its data
are not looked at. -/
structure AnswerText where
  name : Bytes
  type : Nat
  classAndTTL : Bytes
  data : Bytes
  named : NameBytes name
  typed : type ≤ 0xffff
  fixed : classAndTTL.length = 6
  fits : data.length ≤ 0xffff

/-- The question as it stands in a message, with nothing behind it. -/
def QuestionText.bytes (q : QuestionText) : Bytes :=
  q.name ++ (OnesComplement.bytes q.type ++ q.cls)

/-- The record as it stands in a message, the length of its data in front of it. -/
def AnswerText.bytes (r : AnswerText) : Bytes :=
  r.name ++ (OnesComplement.bytes r.type ++ (r.classAndTTL ++
    (OnesComplement.bytes r.data.length ++ r.data)))

/-- The loop over the questions finds the end of the question: no pointer stands
in front of a zero byte, the high byte of a small type. -/
def QuestionText.Plain (q : QuestionText) : Prop := ¬Pointed q.name ∨ 256 ≤ q.type

/-- The questions that can be told apart, up to the announced number, and what
stands behind them. -/
abbrev QuestionsRead (dnsPacket : Bytes) (qs : List QuestionText) (rest : Bytes) : Prop :=
  Reading QuestionText.bytes (readUInt16BE dnsPacket 4) (dnsPacket.drop 12) qs rest

/-- The records that can be told apart in what stands behind the questions. -/
abbrev AnswersRead (dnsPacket rest : Bytes) (rs : List AnswerText) (behind : Bytes) : Prop :=
  Reading AnswerText.bytes (readUInt16BE dnsPacket 6) rest rs behind

/-- The announced answers can be parsed. -/
def Parseable (dnsPacket : Bytes) : Prop :=
  ∃ questions answers a b, Announces dnsPacket questions answers a b

/-- The filter leaves malformed responses and responses without AAAA records
alone. Where it changes a response, the announced answers can be parsed, there
is an AAAA record among them, and the output is the header with the new count,
the questions, the other answers, each of them whole, and all that stood behind
the answers. -/
structure FilterPasses (dnsPacket : Bytes) : Prop where
  malformed : ¬Parseable dnsPacket → filterDNSResponse dnsPacket = dnsPacket
  unfiltered : ∀ questions answers a b, Announces dnsPacket questions answers a b →
    (∀ r ∈ answers, r.value.type ≠ 28) → filterDNSResponse dnsPacket = dnsPacket
  rewrites : filterDNSResponse dnsPacket ≠ dnsPacket →
    ∃ questions answers a b, Announces dnsPacket questions answers a b ∧
      (∃ r ∈ answers, r.value.type = 28) ∧
      filterDNSResponse dnsPacket =
        writeUInt16BE (dnsPacket.take 12) (answers.filter fun r => keepsAnswer r.value).length 6 ++
          slice dnsPacket 12 a ++ DnsMessage.kept dnsPacket keepsAnswer answers ++
          dnsPacket.drop b

/-- What can be told apart behind the questions does not mislead the filter:
only AAAA records, or the announced number of records and no AAAA record; or the
answers can be parsed. -/
def AnswersHarmless (dnsPacket rest : Bytes) : Prop :=
  ∃ rs behind, AnswersRead dnsPacket rest rs behind ∧
    ((∀ r ∈ rs, r.type = 28) ∨
      (rs.length = readUInt16BE dnsPacket 6 ∧ ∀ r ∈ rs, r.type ≠ 28) ∨ Parseable dnsPacket)

/-- The response is too short to be looked at, or announces no answers; or its
questions are plain, and it ends inside them or goes on with harmless answers. -/
def AnswersFilterable (dnsPacket : Bytes) : Prop :=
  dnsPacket.length < 12 ∨ readUInt16BE dnsPacket 6 = 0 ∨
    ∃ qs rest, QuestionsRead dnsPacket qs rest ∧ (∀ q ∈ qs, q.Plain) ∧
      (qs.length < readUInt16BE dnsPacket 4 ∨ AnswersHarmless dnsPacket rest)

variable {dnsPacket : Bytes} {off next reach : Nat} {name tail rest behind : Bytes}
  {q : QuestionText} {qs : List QuestionText} {r : AnswerText} {rs : List AnswerText}

/-- The records that are kept. -/
def keptRecords (rs : List AnswerText) : List AnswerText := rs.filter fun r => r.type ≠ 28

/-- No name is the beginning of another one. -/
theorem NameBytes.unique {name' tail' : Bytes} (h : NameBytes name) (h' : NameBytes name')
    (heq : name ++ tail = name' ++ tail') : name = name' ∧ tail = tail' := by
  induction h generalizing name' with
  | root =>
      cases h' with
      | root => exact ⟨rfl, List.append_cancel_left heq⟩
      | pointer marked =>
          cases heq
          exact absurd marked (by decide)
      | label positive =>
          obtain ⟨rfl, -⟩ := List.cons_eq_cons.mp heq
          exact absurd positive (by decide)
  | pointer marked =>
      cases h' with
      | root =>
          cases heq
          exact absurd marked (by decide)
      | pointer _ =>
          cases heq
          exact ⟨rfl, rfl⟩
      | label _ plain =>
          obtain ⟨rfl, -⟩ := List.cons_eq_cons.mp heq
          omega
  | @label length text rest positive plain whole _ ih =>
      cases h' with
      | root =>
          obtain ⟨rfl, -⟩ := List.cons_eq_cons.mp heq
          exact absurd positive (by decide)
      | pointer marked =>
          obtain ⟨rfl, -⟩ := List.cons_eq_cons.mp heq
          omega
      | @label length' text' rest' _ _ whole' hrest' =>
          rw [List.cons_append, List.cons_append, List.append_assoc, List.append_assoc] at heq
          obtain ⟨rfl, htext⟩ := List.cons_eq_cons.mp heq
          obtain ⟨rfl, hrest⟩ := List.append_inj htext (whole.trans whole'.symm)
          obtain ⟨rfl, htail⟩ := ih hrest' hrest
          exact ⟨rfl, htail⟩

theorem NameBytes.length_pos (h : NameBytes name) : 0 < name.length := by
  cases h <;> exact Nat.succ_pos _

theorem QuestionText.bytes_length (q : QuestionText) : q.bytes.length = q.name.length + 4 := by
  simp only [bytes, List.length_append, OnesComplement.bytes_length, q.fixed]

theorem AnswerText.bytes_length (r : AnswerText) :
    r.bytes.length = r.name.length + 10 + r.data.length := by
  simp only [bytes, List.length_append, OnesComplement.bytes_length, r.fixed]
  omega

theorem bytes_inj {word word' : Nat} (h : word ≤ 0xffff) (h' : word' ≤ 0xffff)
    (heq : OnesComplement.bytes word = OnesComplement.bytes word') : word = word' := by
  have hread := readUInt16BE_bytes h [] []
  rw [heq, readUInt16BE_bytes h' [] []] at hread
  exact hread.symm

theorem QuestionText.unambiguous : Unambiguous QuestionText.bytes := by
  rintro ⟨name, type, fixed, named, typed, hfixed⟩ ⟨name', type', fixed', named', typed', hfixed'⟩
    tail tail' heq
  simp only [QuestionText.bytes, List.append_assoc] at heq
  obtain ⟨rfl, hafterName⟩ := named.unique named' heq
  obtain ⟨htype, hafterType⟩ := List.append_inj hafterName rfl
  obtain rfl := bytes_inj typed typed' htype
  obtain ⟨rfl, htail⟩ := List.append_inj hafterType (hfixed.trans hfixed'.symm)
  exact ⟨rfl, htail⟩

theorem AnswerText.unambiguous : Unambiguous AnswerText.bytes := by
  rintro ⟨name, type, fixed, data, named, typed, hfixed, fits⟩
    ⟨name', type', fixed', data', named', typed', hfixed', fits'⟩ tail tail' heq
  simp only [AnswerText.bytes, List.append_assoc] at heq
  obtain ⟨rfl, hafterName⟩ := named.unique named' heq
  obtain ⟨htype, hafterType⟩ := List.append_inj hafterName rfl
  obtain rfl := bytes_inj typed typed' htype
  obtain ⟨rfl, hafterFixed⟩ := List.append_inj hafterType (hfixed.trans hfixed'.symm)
  obtain ⟨hlength, hafterLength⟩ := List.append_inj hafterFixed rfl
  obtain ⟨rfl, htail⟩ := List.append_inj hafterLength (bytes_inj fits fits' hlength)
  exact ⟨rfl, htail⟩

theorem drop_cons_iff {b : UInt8} {off : Nat} : dnsPacket.drop off = b :: tail ↔
    off < dnsPacket.length ∧ byteAt dnsPacket off = b.toNat ∧ dnsPacket.drop (off + 1) = tail := by
  constructor
  · intro hdrop
    have hlt : off < dnsPacket.length := by
      by_contra hle
      rw [List.drop_eq_nil_of_le (Nat.le_of_not_lt hle)] at hdrop
      cases hdrop
    rw [List.drop_eq_getElem_cons hlt] at hdrop
    obtain ⟨hbyte, htail⟩ := List.cons_eq_cons.mp hdrop
    exact ⟨hlt, by rw [byteAt_of_lt hlt, hbyte], htail⟩
  · rintro ⟨hlt, hbyte, rfl⟩
    rw [byteAt_of_lt hlt] at hbyte
    rw [List.drop_eq_getElem_cons hlt, UInt8.toNat_inj.mp hbyte]

theorem drop_append {front : Bytes} (h : dnsPacket.drop off = front ++ tail) :
    dnsPacket.drop (off + front.length) = tail := by
  rw [← List.drop_drop, h, List.drop_left]

/-- The end of a name that is given by its bytes. -/
theorem skipName_name (hname : NameBytes name) (h : dnsPacket.drop off = name ++ tail) :
    skipName dnsPacket off = off + name.length := by
  induction hname generalizing off with
  | root =>
      obtain ⟨hlt, hzero, -⟩ := drop_cons_iff.mp h
      rw [skipName, if_pos hlt]
      exact if_pos hzero
  | pointer marked =>
      obtain ⟨hlt, hhigh, -⟩ := drop_cons_iff.mp h
      rw [skipName, if_pos hlt, hhigh]
      dsimp only
      rw [if_neg (by omega), if_pos ((pointer_iff (UInt8.toNat_lt _)).mpr marked)]
      rfl
  | @label length text rest positive plain whole _ ih =>
      rw [List.cons_append, List.append_assoc] at h
      obtain ⟨hlt, hlength, htext⟩ := drop_cons_iff.mp h
      have hrest := drop_append htext
      rw [whole, Nat.add_right_comm] at hrest
      rw [skipName, if_pos hlt, hlength]
      dsimp only
      rw [if_neg (by omega), if_neg (by rw [pointer_iff (UInt8.toNat_lt _)]; omega), ih hrest,
        List.length_cons, List.length_append, whole]
      omega

/-- What the loop steps over in front of the end of the packet is a name. -/
theorem nameBytes_of_skipName (hlt : off < dnsPacket.length)
    (hend : skipName dnsPacket off < dnsPacket.length) :
    ∃ name, NameBytes name ∧
      dnsPacket.drop off = name ++ dnsPacket.drop (skipName dnsPacket off) := by
  induction off using skipName.induct dnsPacket with
  | case1 off _ len hzero =>
      rw [skipName, if_pos hlt, if_pos hzero]
      exact ⟨[0], .root, drop_cons_iff.mpr ⟨hlt, hzero, rfl⟩⟩
  | case2 off _ len hmore hmarked =>
      rw [skipName, if_pos hlt, if_neg hmore, if_pos hmarked] at hend ⊢
      rw [List.drop_eq_getElem_cons hlt, List.drop_eq_getElem_cons (by omega)]
      refine ⟨_, .pointer ?_, rfl⟩
      rw [← byteAt_of_lt hlt]
      exact (pointer_iff (UInt8.toNat_lt _)).mp hmarked
  | case3 off _ len hmore hplain ih =>
      rw [skipName, if_pos hlt, if_neg hmore, if_neg hplain] at hend ⊢
      have hinside : off + len + 1 < dnsPacket.length := by
        by_contra hout
        rw [skipName, if_neg hout] at hend
        omega
      obtain ⟨rest, hrest, hdrop⟩ := ih hinside hend
      have hshort : len < 0xC0 :=
        Nat.lt_of_not_le fun hle => hplain ((pointer_iff (UInt8.toNat_lt _)).mpr hle)
      have hlen : len = dnsPacket[off].toNat := byteAt_of_lt hlt
      have htext : dnsPacket.drop (off + 1) =
          (dnsPacket.drop (off + 1)).take len ++ dnsPacket.drop (off + len + 1) := by
        rw [show off + len + 1 = off + 1 + len by omega, ← @List.drop_drop _ len,
          List.take_append_drop]
      refine ⟨_, @NameBytes.label dnsPacket[off] ((dnsPacket.drop (off + 1)).take len) rest
        (by omega) (by omega) ?_ hrest, ?_⟩
      · rw [List.length_take_of_le (by rw [List.length_drop]; omega), hlen]
      · rw [hdrop, ← List.append_assoc] at htext
        exact (List.drop_eq_getElem_cons hlt).trans (congrArg (dnsPacket[off] :: ·) htext)
  | case4 off hout => exact absurd hlt hout

theorem readUInt16BE_drop {word : Nat} (hword : word ≤ 0xffff)
    (h : dnsPacket.drop off = OnesComplement.bytes word ++ tail) :
    readUInt16BE dnsPacket off = word := by
  obtain ⟨-, hhigh, hnext⟩ := drop_cons_iff.mp h
  obtain ⟨-, hlow, -⟩ := drop_cons_iff.mp hnext
  rw [readUInt16BE, hhigh, hlow, UInt8.toNat_ofNat_of_lt' (by simp only [UInt8.size]; omega),
    UInt8.toNat_ofNat_of_lt' (by simp only [UInt8.size]; omega)]
  omega

/-- What the loop reads of a complete record: its type, and an end inside of the
packet. -/
theorem record_reads (h : dnsPacket.drop off = r.bytes ++ tail) :
    off < dnsPacket.length ∧ off + r.bytes.length ≤ dnsPacket.length ∧
      off + r.bytes.length = skipName dnsPacket off + 10 +
        readUInt16BE dnsPacket (skipName dnsPacket off + 8) ∧
      readUInt16BE dnsPacket (skipName dnsPacket off) = r.type := by
  have hlength := congrArg List.length h
  rw [List.length_drop, List.length_append, r.bytes_length] at hlength
  unfold AnswerText.bytes at h
  simp only [List.append_assoc] at h
  have hskip := skipName_name r.named h
  have htype := drop_append h
  have hfixed := drop_append htype
  have hdata := drop_append hfixed
  rw [r.fixed, OnesComplement.bytes_length] at hdata
  rw [hskip, readUInt16BE_drop r.typed htype, Nat.add_assoc (off + r.name.length) 2 6 |>.symm,
    readUInt16BE_drop r.fits hdata, r.bytes_length]
  omega

theorem drop_word {i : Nat} (h : i + 2 ≤ dnsPacket.length) : dnsPacket.drop i =
    OnesComplement.bytes (readUInt16BE dnsPacket i) ++ dnsPacket.drop (i + 2) := by
  rw [bytes_readUInt16BE h, List.drop_eq_getElem_cons (by omega),
    List.drop_eq_getElem_cons (by omega)]
  rfl

theorem drop_part (dnsPacket : Bytes) (i n : Nat) :
    dnsPacket.drop i = (dnsPacket.drop i).take n ++ dnsPacket.drop (i + n) := by
  rw [← List.drop_drop, List.take_append_drop]

/-- Where the loop reads a whole record, there is one. The two directions
together make the loop a reader of `AnswerText`. -/
theorem record_of_reads (hlt : off < dnsPacket.length)
    (hend : skipName dnsPacket off + 10 +
      readUInt16BE dnsPacket (skipName dnsPacket off + 8) ≤ dnsPacket.length) :
    ∃ r tail, dnsPacket.drop off = AnswerText.bytes r ++ tail := by
  obtain ⟨name, hname, hdrop⟩ := nameBytes_of_skipName hlt (by omega)
  generalize skipName dnsPacket off = next at hend hdrop
  generalize hrd : readUInt16BE dnsPacket (next + 8) = rdlength at hend
  have hdata : ((dnsPacket.drop (next + 10)).take rdlength).length = rdlength :=
    List.length_take_of_le (by rw [List.length_drop]; omega)
  have hfixed : ((dnsPacket.drop (next + 2)).take 6).length = 6 :=
    List.length_take_of_le (by rw [List.length_drop]; omega)
  have hle := readUInt16BE_le dnsPacket (next + 8)
  have hbody : dnsPacket.drop next = OnesComplement.bytes (readUInt16BE dnsPacket next) ++
      ((dnsPacket.drop (next + 2)).take 6 ++ (OnesComplement.bytes rdlength ++
        ((dnsPacket.drop (next + 10)).take rdlength ++ dnsPacket.drop (next + 10 + rdlength)))) := by
    rw [← drop_part, ← hrd, ← @drop_word dnsPacket (next + 8) (by omega), ← drop_part,
      ← @drop_word dnsPacket next (by omega)]
  refine ⟨⟨name, readUInt16BE dnsPacket next, (dnsPacket.drop (next + 2)).take 6,
    (dnsPacket.drop (next + 10)).take rdlength, hname, readUInt16BE_le _ _, hfixed, by omega⟩,
    dnsPacket.drop (next + 10 + rdlength), ?_⟩
  rw [hdrop, hbody, AnswerText.bytes]
  dsimp only
  rw [hdata]
  simp only [List.append_assoc]

theorem le_skipQuestionName (dnsPacket : Bytes) (off : Nat) :
    off ≤ skipQuestionName dnsPacket off := by
  induction off using skipQuestionName.induct dnsPacket with
  | case1 off hmore len hmarked =>
      rw [skipQuestionName, if_pos hmore, if_pos hmarked]
      omega
  | case2 off hmore len hplain ih =>
      rw [skipQuestionName, if_pos hmore, if_neg hplain]
      exact (by omega : off ≤ off + len + 1).trans ih
  | case3 off hend =>
      rw [skipQuestionName, if_neg hend]

theorem skipQuestionName_le (dnsPacket : Bytes) (off : Nat) :
    skipQuestionName dnsPacket off + 4 ≤ skipQuestion dnsPacket off := by
  unfold skipQuestion
  dsimp only
  split <;> omega

theorem le_skipQuestions (dnsPacket : Bytes) (qdcount off : Nat) :
    off ≤ skipQuestions dnsPacket qdcount off := by
  induction qdcount generalizing off with
  | zero => exact le_rfl
  | succ qdcount ih =>
      have hname := le_skipQuestionName dnsPacket off
      have hfirst := skipQuestionName_le dnsPacket off
      have hrest := ih (skipQuestion dnsPacket off)
      rw [skipQuestions]
      omega

/-- Where the question loop stops in a name: behind a pointer, or at the zero
byte. -/
theorem skipQuestionName_name (hname : NameBytes name) (h : dnsPacket.drop off = name ++ tail) :
    Pointed name ∧ skipQuestionName dnsPacket off = off + name.length ∨
      skipQuestionName dnsPacket off + 1 = off + name.length ∧
        skipQuestionName dnsPacket off < dnsPacket.length ∧
        byteAt dnsPacket (skipQuestionName dnsPacket off) = 0 := by
  induction hname generalizing off with
  | root =>
      obtain ⟨hlt, hzero, -⟩ := drop_cons_iff.mp h
      rw [skipQuestionName, if_neg fun hmore => hmore.2 hzero]
      exact .inr ⟨rfl, hlt, hzero⟩
  | pointer marked =>
      obtain ⟨hlt, hhigh, -⟩ := drop_cons_iff.mp h
      rw [skipQuestionName, if_pos ⟨hlt, by omega⟩, hhigh]
      dsimp only
      rw [if_pos ((pointer_iff (UInt8.toNat_lt _)).mpr marked)]
      exact .inl ⟨.pointer marked, rfl⟩
  | @label length text rest positive plain whole _ ih =>
      rw [List.cons_append, List.append_assoc] at h
      obtain ⟨hlt, hlength, htext⟩ := drop_cons_iff.mp h
      have hrest := drop_append htext
      rw [whole, Nat.add_right_comm] at hrest
      have hend : off + (length :: (text ++ rest)).length = off + length.toNat + 1 + rest.length := by
        rw [List.length_cons, List.length_append, whole]
        omega
      rw [skipQuestionName, if_pos ⟨hlt, by omega⟩, hlength, hend]
      dsimp only
      rw [if_neg (by rw [pointer_iff (UInt8.toNat_lt _)]; omega)]
      exact (ih hrest).imp_left fun hpointed => ⟨.label whole hpointed.1, hpointed.2⟩

/-- A plain question is stepped over as it stands, zero byte and all. -/
theorem skipQuestion_text (h : dnsPacket.drop off = q.bytes ++ tail) (hplain : q.Plain) :
    skipQuestion dnsPacket off = off + q.bytes.length := by
  rw [q.bytes_length]
  unfold QuestionText.bytes at h
  rw [List.append_assoc, List.append_assoc] at h
  have htype := drop_append h
  unfold skipQuestion
  dsimp only
  obtain ⟨hpointed, hstop⟩ | ⟨hstop, hlt, hzero⟩ := skipQuestionName_name q.named h
  · have hlarge := hplain.resolve_left (not_not_intro hpointed)
    have hword := readUInt16BE_drop q.typed htype
    have hlow : byteAt dnsPacket (off + q.name.length + 1) < 256 := UInt8.toNat_lt _
    have hbyte : byteAt dnsPacket (off + q.name.length) ≠ 0 := by
      intro hzero
      rw [readUInt16BE, hzero] at hword
      omega
    rw [hstop, if_neg fun hno => hbyte hno.2, Nat.add_assoc]
  · rw [if_pos ⟨hlt, hzero⟩, hstop, Nat.add_assoc]

theorem skipQuestions_texts (h : dnsPacket.drop off = encodeAll QuestionText.bytes qs ++ rest)
    (hplain : ∀ q ∈ qs, q.Plain) (n : Nat) :
    skipQuestions dnsPacket (qs.length + n) off =
      skipQuestions dnsPacket n (off + (encodeAll QuestionText.bytes qs).length) := by
  induction qs generalizing off with
  | nil => rw [List.length_nil, Nat.zero_add]; rfl
  | cons q qs ih =>
      obtain ⟨hfirst, hrest⟩ := List.forall_mem_cons.mp hplain
      rw [PrefixFree.encodeAll_cons, List.append_assoc] at h
      have hbehind := ih (drop_append h) hrest
      rw [List.length_cons, Nat.add_right_comm, skipQuestions, skipQuestion_text h hfirst, hbehind,
        PrefixFree.encodeAll_cons, List.length_append, Nat.add_assoc]

/-- What the question loop steps over in front of the end of the packet is a
name. -/
theorem nameBytes_of_skipQuestionName (hend : skipQuestionName dnsPacket off < dnsPacket.length) :
    ∃ name, NameBytes name ∧ dnsPacket.drop off = name ++ dnsPacket.drop (off + name.length) ∧
      (off + name.length = skipQuestionName dnsPacket off ∨
        off + name.length = skipQuestionName dnsPacket off + 1 ∧
          byteAt dnsPacket (skipQuestionName dnsPacket off) = 0) := by
  induction off using skipQuestionName.induct dnsPacket with
  | case1 off hmore len hmarked =>
      rw [skipQuestionName, if_pos hmore, if_pos hmarked] at hend ⊢
      have hlt : off < dnsPacket.length := hmore.1
      have hname : NameBytes [dnsPacket[off], dnsPacket[off + 1]] := by
        refine .pointer ?_
        rw [← byteAt_of_lt hmore.1]
        exact (pointer_iff (UInt8.toNat_lt _)).mp hmarked
      refine ⟨_, hname, ?_, .inl rfl⟩
      rw [List.drop_eq_getElem_cons hmore.1, List.drop_eq_getElem_cons (by omega)]
      rfl
  | case2 off hmore len hplain ih =>
      rw [skipQuestionName, if_pos hmore, if_neg hplain] at hend ⊢
      obtain ⟨rest, hrest, hdrop, hstop⟩ := ih hend
      have hlen : len = dnsPacket[off].toNat := byteAt_of_lt hmore.1
      have hshort : len < 0xC0 :=
        Nat.lt_of_not_le fun hle => hplain ((pointer_iff (UInt8.toNat_lt _)).mpr hle)
      have hinside : off + len + 1 < dnsPacket.length :=
        (le_skipQuestionName dnsPacket _).trans_lt hend
      have htext : ((dnsPacket.drop (off + 1)).take len).length = len :=
        List.length_take_of_le (by rw [List.length_drop]; omega)
      have hlength : off + (dnsPacket[off] :: ((dnsPacket.drop (off + 1)).take len ++ rest)).length =
          off + len + 1 + rest.length := by
        rw [List.length_cons, List.length_append, htext]
        omega
      refine ⟨_, .label (by have := hmore.2; omega) (by omega) (htext.trans hlen) hrest, ?_, ?_⟩
      · rw [hlength, List.cons_append, List.append_assoc, ← hdrop,
          show off + len + 1 = off + 1 + len by omega, ← drop_part]
        exact List.drop_eq_getElem_cons hmore.1
      · rw [hlength]
        exact hstop
  | case3 off hstop =>
      rw [skipQuestionName, if_neg hstop] at hend ⊢
      have hzero : byteAt dnsPacket off = 0 := by
        by_contra hbyte
        exact hstop ⟨hend, hbyte⟩
      exact ⟨[0], .root, drop_cons_iff.mpr ⟨hend, hzero, rfl⟩, .inr ⟨rfl, hzero⟩⟩

/-- In front of anything but a complete question the loop runs to the end of the
packet, and no answer is read then. -/
theorem skipQuestion_stuck (h : ∀ q tail, dnsPacket.drop off ≠ QuestionText.bytes q ++ tail) :
    dnsPacket.length ≤ skipQuestion dnsPacket off := by
  by_contra hinside
  have hskip := skipQuestionName_le dnsPacket off
  obtain ⟨name, hname, hdrop, hstop⟩ :=
    @nameBytes_of_skipQuestionName dnsPacket off (by omega)
  have hfits : off + name.length + 4 ≤ dnsPacket.length := by
    obtain hstop | ⟨hstop, hzero⟩ := hstop
    · omega
    · have hbehind : skipQuestion dnsPacket off = skipQuestionName dnsPacket off + 1 + 4 := by
        unfold skipQuestion
        dsimp only
        rw [if_pos ⟨by omega, hzero⟩]
      omega
  have hcls : ((dnsPacket.drop (off + name.length + 2)).take 2).length = 2 :=
    List.length_take_of_le (by rw [List.length_drop]; omega)
  refine h ⟨name, readUInt16BE dnsPacket (off + name.length), _, hname, readUInt16BE_le _ _, hcls⟩
    (dnsPacket.drop (off + name.length + 2 + 2)) ?_
  rw [QuestionText.bytes, List.append_assoc, List.append_assoc, ← drop_part,
    ← @drop_word dnsPacket (off + name.length) (by omega)]
  exact hdrop

/-- A name that can be expanded is one, with the same end. -/
theorem nameBytes_of_nameAt {labels : DnsMessage.Name} (h : NameAt dnsPacket off labels next reach) :
    ∃ name, NameBytes name ∧ next = off + name.length ∧
      dnsPacket.drop off = name ++ dnsPacket.drop next := by
  induction h with
  | root zero =>
      obtain ⟨hlt, hzero⟩ := byteAt_of_getElem? zero
      exact ⟨[0], .root, rfl, drop_cons_iff.mpr ⟨hlt, hzero, rfl⟩⟩
  | @label off next reach length labels head positive short tail ih =>
      obtain ⟨rest, hrest, hnext, hdrop⟩ := ih
      obtain ⟨hlt, hlength⟩ := byteAt_of_getElem? head
      have hinside := congrArg List.length hdrop
      have hpos := hrest.length_pos
      rw [List.length_drop, List.length_append] at hinside
      have htext : ((dnsPacket.drop (off + 1)).take length.toNat).length = length.toNat :=
        List.length_take_of_le (by rw [List.length_drop]; omega)
      refine ⟨_, .label positive (by omega) htext hrest, ?_, ?_⟩
      · rw [List.length_cons, List.length_append, htext]
        omega
      · rw [List.cons_append, List.append_assoc, ← hdrop, ← drop_part]
        exact drop_cons_iff.mpr ⟨hlt, hlength, rfl⟩
  | pointer first marked second body target ih =>
      obtain ⟨hlt, hhigh⟩ := byteAt_of_getElem? first
      obtain ⟨hlt', hlow⟩ := byteAt_of_getElem? second
      exact ⟨_, .pointer marked, rfl,
        drop_cons_iff.mpr ⟨hlt, hhigh, drop_cons_iff.mpr ⟨hlt', hlow, rfl⟩⟩⟩

theorem questionText_of_questionAt {question : DnsMessage.Question} {stop : Nat}
    (h : QuestionAt dnsPacket off question stop reach) :
    ∃ q : QuestionText, stop = off + q.bytes.length ∧
      dnsPacket.drop off = q.bytes ++ dnsPacket.drop stop := by
  obtain ⟨⟨next, hname, rfl, -⟩, hfits⟩ := h
  obtain ⟨name, hbytes, hnext, hdrop⟩ := nameBytes_of_nameAt hname
  have hcls : ((dnsPacket.drop (next + 2)).take 2).length = 2 :=
    List.length_take_of_le (by rw [List.length_drop]; omega)
  refine ⟨⟨name, readUInt16BE dnsPacket next, _, hbytes, readUInt16BE_le _ _, hcls⟩, ?_, ?_⟩
  · rw [QuestionText.bytes_length, ← Nat.add_assoc, ← hnext]
  · rw [QuestionText.bytes, List.append_assoc, List.append_assoc, ← drop_part,
      ← @drop_word dnsPacket next (by omega)]
    exact hdrop

/-- The questions of a section, as the bytes they are written with. -/
theorem questionTexts_of_section {questions : List (DnsMessage.Located DnsMessage.Question)}
    {stop : Nat} (h : SectionAt (QuestionAt dnsPacket) off questions stop) :
    ∃ qs, qs.length = questions.length ∧
      stop = off + (encodeAll QuestionText.bytes qs).length ∧
      dnsPacket.drop off = encodeAll QuestionText.bytes qs ++ dnsPacket.drop stop := by
  induction h with
  | nil => exact ⟨[], rfl, rfl, rfl⟩
  | cons head tail ih =>
      obtain ⟨q, hstop, hdrop⟩ := questionText_of_questionAt head
      obtain ⟨qs, hlength, hend, hrest⟩ := ih
      refine ⟨q :: qs, congrArg (· + 1) hlength, ?_, ?_⟩
      · rw [PrefixFree.encodeAll_cons, List.length_append, ← Nat.add_assoc, ← hstop]
        exact hend
      · rw [PrefixFree.encodeAll_cons, List.append_assoc, ← hrest]
        exact hdrop

/-- The variables of the loop behind a complete record. -/
def AnswerScan.read (s : AnswerScan) (r : AnswerText) : AnswerScan :=
  if r.type ≠ 28 then
    { keptAnswers := s.keptAnswers ++ [r.bytes]
      newAncount := s.newAncount + 1
      hasIPv6Only := false
      offset := s.offset + r.bytes.length }
  else { s with offset := s.offset + r.bytes.length }

theorem AnswerScan.read_offset (s : AnswerScan) (r : AnswerText) :
    (s.read r).offset = s.offset + r.bytes.length := by
  unfold AnswerScan.read
  split <;> rfl

theorem scanAnswers_record (s : AnswerScan) (n : Nat)
    (h : dnsPacket.drop s.offset = r.bytes ++ tail) :
    scanAnswers dnsPacket (n + 1) s = scanAnswers dnsPacket n (s.read r) := by
  obtain ⟨hlt, hfits, hstop, htype⟩ := record_reads h
  have hslice : slice dnsPacket s.offset (s.offset + r.bytes.length) = r.bytes := by
    rw [slice, List.drop_take, Nat.add_sub_cancel_left, h, List.take_left]
  rw [scanAnswers, if_pos hlt]
  dsimp only
  rw [if_neg (by omega), ← hstop, if_neg (by omega), htype, hslice]
  unfold AnswerScan.read
  split <;> rfl

/-- In front of anything but a complete record the loop ends, at some offset.
Where exactly, depends on how the record is cut. -/
theorem scanAnswers_stops (s : AnswerScan) (n : Nat)
    (h : ∀ r tail, dnsPacket.drop s.offset ≠ AnswerText.bytes r ++ tail) :
    ∃ offset, scanAnswers dnsPacket n s = { s with offset } := by
  cases n with
  | zero => exact ⟨s.offset, rfl⟩
  | succ n =>
      rw [scanAnswers]
      by_cases hlt : s.offset < dnsPacket.length
      · rw [if_pos hlt]
        dsimp only
        by_cases hheader : skipName dnsPacket s.offset + 10 > dnsPacket.length
        · rw [if_pos hheader]
          exact ⟨_, rfl⟩
        · rw [if_neg hheader]
          have hdata : skipName dnsPacket s.offset + 10 +
              readUInt16BE dnsPacket (skipName dnsPacket s.offset + 8) > dnsPacket.length := by
            by_contra hfits
            obtain ⟨r, tail, hrecord⟩ := record_of_reads hlt (Nat.le_of_not_gt hfits)
            exact h r tail hrecord
          rw [if_pos hdata]
          exact ⟨_, rfl⟩
      · rw [if_neg hlt]
        exact ⟨s.offset, rfl⟩

theorem scanAnswers_records (s : AnswerScan) (n : Nat)
    (h : dnsPacket.drop s.offset = encodeAll AnswerText.bytes rs ++ rest) :
    scanAnswers dnsPacket (rs.length + n) s = scanAnswers dnsPacket n (rs.foldl AnswerScan.read s) := by
  induction rs generalizing s with
  | nil => rw [List.length_nil, Nat.zero_add, List.foldl_nil]
  | cons r rs ih =>
      rw [PrefixFree.encodeAll_cons, List.append_assoc] at h
      have hbehind := drop_append h
      rw [← s.read_offset] at hbehind
      rw [List.length_cons, Nat.add_right_comm, scanAnswers_record s _ h, ih _ hbehind,
        List.foldl_cons]

theorem foldl_read (rs : List AnswerText) (s : AnswerScan) :
    rs.foldl AnswerScan.read s =
      { keptAnswers := s.keptAnswers ++ (keptRecords rs).map AnswerText.bytes
        newAncount := s.newAncount + (keptRecords rs).length
        hasIPv6Only := s.hasIPv6Only && rs.all fun r => r.type = 28
        offset := s.offset + (encodeAll AnswerText.bytes rs).length } := by
  induction rs generalizing s with
  | nil => simp [keptRecords]
  | cons r rs ih =>
      rw [List.foldl_cons, ih]
      unfold AnswerScan.read keptRecords
      by_cases hkeep : r.type = 28
      · simp [hkeep, Nat.add_assoc]
      · simp [hkeep, Nat.add_assoc, Nat.add_comm 1]

theorem keptRecords_eq_nil_iff : keptRecords rs = [] ↔ ∀ r ∈ rs, r.type = 28 := by
  simp [keptRecords]

theorem keptRecords_length_eq_iff : (keptRecords rs).length = rs.length ↔ ∀ r ∈ rs, r.type ≠ 28 := by
  simp [keptRecords, List.length_filter_eq_length_iff]

/-- What the loop over the answers ends with, whatever the packet: the records
that are all there, up to the number announced. -/
theorem scanAnswers_reading {start : Nat} (h : AnswersRead dnsPacket (dnsPacket.drop start) rs behind) :
    ∃ offset, scanAnswers dnsPacket (readUInt16BE dnsPacket 6) { offset := start } =
      { keptAnswers := (keptRecords rs).map AnswerText.bytes
        newAncount := (keptRecords rs).length
        hasIPv6Only := rs.all fun r => r.type = 28
        offset } := by
  have hrecords := fun n => scanAnswers_records { offset := start } n h.split
  have hread := foldl_read rs { offset := start }
  rw [List.nil_append, Nat.zero_add, Bool.true_and] at hread
  obtain hcount | ⟨hcount, hstuck⟩ := h.ends
  · refine ⟨start + (encodeAll AnswerText.bytes rs).length, ?_⟩
    have hall := hrecords 0
    rw [Nat.add_zero, hcount] at hall
    rw [hall, hread]
    rfl
  · obtain ⟨n, hn⟩ := Nat.exists_eq_add_of_lt hcount
    have hbehind : ∀ r tail, dnsPacket.drop
        (rs.foldl AnswerScan.read { offset := start }).offset ≠ AnswerText.bytes r ++ tail := by
      rw [hread]
      dsimp only
      rw [drop_append h.split]
      exact hstuck
    obtain ⟨offset, hstops⟩ := scanAnswers_stops _ (n + 1) hbehind
    refine ⟨offset, ?_⟩
    rw [hn, Nat.add_assoc, hrecords, hstops, hread]

/-- The filter rebuilds the packet when it keeps some of the records it tells
apart, and fewer than announced. -/
theorem filterDNSResponse_reading {start : Nat} (hheader : 12 ≤ dnsPacket.length)
    (hstart : skipQuestions dnsPacket (readUInt16BE dnsPacket 4) 12 = start)
    (h : AnswersRead dnsPacket (dnsPacket.drop start) rs behind) :
    ∃ body, filterDNSResponse dnsPacket =
      if keptRecords rs ≠ [] ∧ (keptRecords rs).length < readUInt16BE dnsPacket 6 then
        writeUInt16BE (dnsPacket.take 12) (keptRecords rs).length 6 ++ body
      else dnsPacket := by
  obtain ⟨offset, hscan⟩ := scanAnswers_reading h
  refine ⟨slice dnsPacket 12 start ++ (((keptRecords rs).map AnswerText.bytes).flatten ++
    dnsPacket.drop offset), ?_⟩
  unfold filterDNSResponse
  dsimp only
  rw [if_neg (Nat.not_lt.mpr hheader), hstart, hscan]
  by_cases hzero : readUInt16BE dnsPacket 6 = 0
  · rw [if_pos hzero, if_neg (by omega)]
  rw [if_neg hzero]
  dsimp only
  by_cases hnone : keptRecords rs = []
  · have hall : (rs.all fun r => decide (r.type = 28)) = true := by
      simpa using keptRecords_eq_nil_iff.mp hnone
    have hkeepsNone : ¬(keptRecords rs ≠ [] ∧
        (keptRecords rs).length < readUInt16BE dnsPacket 6) := fun hboth => hboth.1 hnone
    rw [if_neg hkeepsNone, if_pos ⟨hall, by rw [hnone]; rfl⟩]
  · have hsome : ¬((keptRecords rs).map AnswerText.bytes).length = 0 := by
      rw [List.length_map]
      exact fun hlength => hnone (List.length_eq_zero_iff.mp hlength)
    rw [if_neg fun hboth => hsome hboth.2]
    simp only [List.append_assoc]
    exact if_congr (by rw [and_iff_right hnone]) rfl rfl

/-- Plain questions that are all there are stepped over, up to what stands
behind them. -/
theorem skipQuestions_reading (h : QuestionsRead dnsPacket qs rest) (hplain : ∀ q ∈ qs, q.Plain)
    (hcount : qs.length = readUInt16BE dnsPacket 4) :
    skipQuestions dnsPacket (readUInt16BE dnsPacket 4) 12 =
        12 + (encodeAll QuestionText.bytes qs).length ∧
      dnsPacket.drop (12 + (encodeAll QuestionText.bytes qs).length) = rest := by
  have hall := skipQuestions_texts h.split hplain 0
  rw [Nat.add_zero, hcount] at hall
  exact ⟨hall, drop_append h.split⟩

/-- A response that ends inside its questions is left alone: the loop has run to
its end, and there is no answer to keep. -/
theorem filterDNSResponse_of_few_questions (hheader : 12 ≤ dnsPacket.length)
    (h : QuestionsRead dnsPacket qs rest) (hplain : ∀ q ∈ qs, q.Plain)
    (hfew : qs.length < readUInt16BE dnsPacket 4) : filterDNSResponse dnsPacket = dnsPacket := by
  obtain hcount | ⟨-, hstuck⟩ := h.ends
  · omega
  obtain ⟨n, hn⟩ := Nat.exists_eq_add_of_lt hfew
  have hskip := skipQuestions_texts h.split hplain (n + 1)
  rw [← Nat.add_assoc, ← hn, skipQuestions] at hskip
  have hend : dnsPacket.length ≤ skipQuestions dnsPacket (readUInt16BE dnsPacket 4) 12 := by
    rw [hskip]
    refine (skipQuestion_stuck ?_).trans (le_skipQuestions _ _ _)
    rw [drop_append h.split]
    exact hstuck
  obtain ⟨rs, behind, hrs⟩ := exists_reading AnswerText.bytes (readUInt16BE dnsPacket 6)
    (dnsPacket.drop (skipQuestions dnsPacket (readUInt16BE dnsPacket 4) 12))
  obtain ⟨body, hfilter⟩ := filterDNSResponse_reading hheader rfl hrs
  have hsplit := hrs.split
  rw [List.drop_eq_nil_of_le hend] at hsplit
  have hnone : rs = [] := by
    cases rs with
    | nil => rfl
    | cons r rs =>
        have hpos := r.bytes_length
        have hlength := congrArg List.length hsplit
        rw [PrefixFree.encodeAll_cons, List.length_append, List.length_append, List.length_nil] at hlength
        omega
  rw [hnone] at hfilter
  rw [hfilter, if_neg fun hboth => hboth.1 rfl]

/-- Where the questions are plain, the filter finds the answers, and returns
what its rules make of them. -/
theorem filterDNSResponse_announced {questions : List (DnsMessage.Located DnsMessage.Question)}
    {answers : List (DnsMessage.Located DnsMessage.Record)} {a b : Nat}
    (h : Announces dnsPacket questions answers a b) (hqs : QuestionsRead dnsPacket qs rest)
    (hplain : ∀ q ∈ qs, q.Plain) : filterDNSResponse dnsPacket =
      if (answers.any fun r => keepsAnswer r.value) = true ∧
          (answers.filter fun r => keepsAnswer r.value).length < answers.length then
        writeUInt16BE (dnsPacket.take 12) (answers.filter fun r => keepsAnswer r.value).length 6 ++
          slice dnsPacket 12 a ++ DnsMessage.kept dnsPacket keepsAnswer answers ++
          dnsPacket.drop b
      else dnsPacket := by
  have hqdcount : questions.length = readUInt16BE dnsPacket 4 := h.questionCount
  obtain ⟨qs', hlength, hstop, hdrop⟩ := questionTexts_of_section h.questions
  obtain ⟨rfl, -⟩ := hqs.eq_of_length QuestionText.unambiguous hdrop (hlength.trans hqdcount)
  refine filterDNSResponse_eq h ?_
  rw [hqdcount, (skipQuestions_reading hqs hplain (hlength.trans hqdcount)).1, ← hstop]

theorem FilterPasses.of_eq (h : filterDNSResponse dnsPacket = dnsPacket) :
    FilterPasses dnsPacket :=
  ⟨fun _ => h, fun _ _ _ _ _ _ => h, fun hne => absurd h hne⟩

/-- A message that can be parsed, with plain questions, satisfies what is asked
of the filter. -/
theorem FilterPasses.of_parseable (h : Parseable dnsPacket) (hqs : QuestionsRead dnsPacket qs rest)
    (hplain : ∀ q ∈ qs, q.Plain) : FilterPasses dnsPacket where
  malformed hno := absurd h hno
  unfiltered questions answers a b h' hnone := by
    have hall : answers.filter (fun r => keepsAnswer r.value) = answers :=
      List.filter_eq_self.mpr fun r hr => decide_eq_true (hnone r hr)
    rw [filterDNSResponse_announced h' hqs hplain, hall, if_neg fun hboth => lt_irrefl _ hboth.2]
  rewrites hne := by
    obtain ⟨questions, answers, a, b, h'⟩ := h
    have hfilter := filterDNSResponse_announced h' hqs hplain
    by_cases hboth : (answers.any fun r => keepsAnswer r.value) = true ∧
        (answers.filter fun r => keepsAnswer r.value).length < answers.length
    · rw [if_pos hboth] at hfilter
      refine ⟨questions, answers, a, b, h', ?_, hfilter⟩
      by_contra hnone
      have hall : answers.filter (fun r => keepsAnswer r.value) = answers :=
        List.filter_eq_self.mpr fun r hr => decide_eq_true fun htype => hnone ⟨r, hr, htype⟩
      rw [hall] at hboth
      exact lt_irrefl _ hboth.2
    · rw [if_neg hboth] at hfilter
      exact absurd hfilter hne

/-- The filter passes on what it should whenever the response is filterable; and
where the questions are plain, in no other case. -/
theorem filterDNSResponse_passes_iff (dnsPacket : Bytes) :
    (AnswersFilterable dnsPacket → FilterPasses dnsPacket) ∧
      ∀ qs rest, QuestionsRead dnsPacket qs rest → (∀ q ∈ qs, q.Plain) →
        FilterPasses dnsPacket → AnswersFilterable dnsPacket := by
  constructor
  · rintro (hshort | hzero | ⟨qs, rest, hqs, hplain, hrest⟩)
    · exact .of_eq (by rw [filterDNSResponse, if_pos hshort])
    · refine .of_eq ?_
      unfold filterDNSResponse
      dsimp only
      rw [if_pos hzero, ite_self]
    by_cases hshort : dnsPacket.length < 12
    · exact .of_eq (by rw [filterDNSResponse, if_pos hshort])
    rw [Nat.not_lt] at hshort
    obtain hfew | ⟨rs, behind, hrs, hharmless⟩ := hrest
    · exact .of_eq (filterDNSResponse_of_few_questions hshort hqs hplain hfew)
    obtain hcount | ⟨hfew, -⟩ := hqs.ends
    swap
    · exact .of_eq (filterDNSResponse_of_few_questions hshort hqs hplain hfew)
    obtain ⟨hstart, rfl⟩ := skipQuestions_reading hqs hplain hcount
    obtain ⟨body, hfilter⟩ := filterDNSResponse_reading hshort hstart hrs
    obtain honly | ⟨hfull, hnone⟩ | hparseable := hharmless
    · refine .of_eq ?_
      rw [hfilter, if_neg fun hboth => hboth.1 (keptRecords_eq_nil_iff.mpr honly)]
    · refine .of_eq ?_
      rw [hfilter, if_neg fun hboth => ?_]
      rw [keptRecords_length_eq_iff.mpr hnone, hfull] at hboth
      exact lt_irrefl _ hboth.2
    · exact .of_parseable hparseable hqs hplain
  · intro qs rest hqs hplain hpasses
    by_cases hshort : dnsPacket.length < 12
    · exact .inl hshort
    rw [Nat.not_lt] at hshort
    refine .inr (.inr ⟨qs, rest, hqs, hplain, ?_⟩)
    obtain hcount | ⟨hfew, -⟩ := hqs.ends
    swap
    · exact .inl hfew
    obtain ⟨hstart, rfl⟩ := skipQuestions_reading hqs hplain hcount
    obtain ⟨rs, behind, hrs⟩ := exists_reading AnswerText.bytes (readUInt16BE dnsPacket 6)
      (dnsPacket.drop (12 + (encodeAll QuestionText.bytes qs).length))
    refine .inr ⟨rs, behind, hrs, ?_⟩
    by_cases hparseable : Parseable dnsPacket
    · exact .inr (.inr hparseable)
    by_cases honly : keptRecords rs = []
    · exact .inl (keptRecords_eq_nil_iff.mp honly)
    obtain ⟨body, hfilter⟩ := filterDNSResponse_reading hshort hstart hrs
    rw [hpasses.malformed hparseable] at hfilter
    have hword := readUInt16BE_le dnsPacket 6
    have hkept : (keptRecords rs).length ≤ rs.length := List.length_filter_le _ _
    -- a rebuilt packet announces fewer answers than it did
    have hmany : readUInt16BE dnsPacket 6 ≤ (keptRecords rs).length := by
      by_contra hless
      rw [Nat.not_le] at hless
      rw [if_pos ⟨honly, hless⟩] at hfilter
      have hsix := (header_write hshort (hless.le.trans hword) body).1
      rw [← hfilter] at hsix
      exact absurd hsix (Nat.ne_of_gt hless)
    have hle := hrs.length_le
    exact .inr (.inl ⟨by omega, keptRecords_length_eq_iff.mp (by omega)⟩)

theorem Pointed.ends (h : Pointed name) :
    ∃ front high low, 0xC0 ≤ high.toNat ∧ name = front ++ [high, low] := by
  induction h with
  | pointer marked => exact ⟨[], _, _, marked, rfl⟩
  | @label length text rest whole tail ih =>
      obtain ⟨front, high, low, hmarked, rfl⟩ := ih
      exact ⟨length :: (text ++ front), high, low, hmarked, by simp⟩

/-- An A record is kept and an AAAA record deleted; the question has a name of
its own. -/
theorem filterDNSResponse_passes_example : FilterPasses (exampleResponse 12) ∧
    filterDNSResponse (exampleResponse 12) ≠ exampleResponse 12 := by
  refine ⟨(filterDNSResponse_passes_iff _).1 (.inr (.inr ?_)), by decide +kernel⟩
  have hlabel : (exampleResponse 12)[12]? = some 1 := rfl
  have hbody : 12 ≤ (12 : UInt8).toNat := by decide
  have hparses := parses_exampleResponse hbody (.label hlabel (by decide) (by decide) (.root rfl))
  obtain ⟨a, b, c, hquestions, hanswers, -⟩ := hparses.sections
  have hname : NameBytes [1, 97, 0] := @NameBytes.label 1 [97] [0] (by decide) (by decide) rfl .root
  have hpointed : ¬Pointed [1, 97, 0] := by
    intro h
    obtain ⟨front, high, low, hmarked, hbytes⟩ := h.ends
    obtain ⟨-, hlast⟩ := @List.append_inj' _ [1] [97, 0] _ _ hbytes rfl
    obtain ⟨rfl, -⟩ := List.cons_eq_cons.mp hlast
    exact absurd hmarked (by decide)
  obtain ⟨rs, behind, hrs⟩ := exists_reading AnswerText.bytes
    (readUInt16BE (exampleResponse 12) 6) ((exampleResponse 12).drop 19)
  have hsplit : (exampleResponse 12).drop 12 =
      ([1, 97, 0] ++ (OnesComplement.bytes 255 ++ [0, 1])) ++ (exampleResponse 12).drop 19 := by decide
  rw [← List.append_nil ([1, 97, 0] ++ (OnesComplement.bytes 255 ++ [0, 1]))] at hsplit
  exact ⟨[⟨[1, 97, 0], 255, [0, 1], hname, by decide, rfl⟩], (exampleResponse 12).drop 19,
    ⟨hsplit, .inl rfl⟩, List.forall_mem_singleton.mpr (.inl hpointed),
    .inr ⟨rs, behind, hrs, .inr (.inr ⟨_, _, _, _, announces_of_parses hparses hquestions hanswers⟩)⟩⟩

/-- A response that announces two answers, has an A record, and ends inside the
second record. -/
def truncatedResponse : Bytes :=
  [0x12, 0x34, 0x81, 0x80, 0, 0, 0, 2, 0, 0, 0, 0] ++
    [0, 0, 1, 0, 1, 0, 0, 0, 60, 0, 4, 192, 0, 2, 1] ++ [0, 0, 16]

/-- A record has eleven bytes at least: a name of one byte, and ten behind it. -/
theorem records_length {answers : List (DnsMessage.Located DnsMessage.Record)} {a b : Nat}
    (h : SectionAt (RecordAt dnsPacket) a answers b) (hfits : a ≤ dnsPacket.length) :
    a + 11 * answers.length ≤ b ∧ b ≤ dnsPacket.length := by
  induction h with
  | nil => exact ⟨le_rfl, hfits⟩
  | cons head tail ih =>
      obtain ⟨hrest, hend⟩ := ih head.fits
      obtain ⟨⟨next, owned, held, hname, rfl, -⟩, -⟩ := head
      have hnext := hname.lt
      rw [List.length_cons]
      exact ⟨by omega, hend⟩

theorem filterDNSResponse_truncated : ¬FilterPasses truncatedResponse := by
  intro hpasses
  have hincomplete : ¬Parseable truncatedResponse := by
    rintro ⟨questions, answers, a, b, -, hquestions, hanswers, hsection, hrecords⟩
    have hnone : questions = [] := List.length_eq_zero_iff.mp (hquestions.trans (by decide))
    have htwo : answers.length = 2 := hanswers.trans (by decide)
    subst hnone
    cases hsection
    obtain ⟨hlong, hend⟩ := records_length hrecords (by decide)
    have hlength : truncatedResponse.length = 30 := rfl
    omega
  exact absurd (hpasses.malformed hincomplete) (by decide +kernel)

end RootlessRelay

import RootlessRelay.Library.DnsMessage
import RootlessRelay.Net.Checksum

/-!
# The DNS filter

`filterDNSResponse` deletes the AAAA records from the answers of a response and
copies all the rest. It never looks at where a compressed name points.

The meaning of a response is the library's (`DnsMessage`): names are expanded
there, and the output of the filter is compared with the input as messages. Two
things can go wrong. The question loop takes a byte behind a pointer for the end
of a name, and a name that is kept may point to bytes that have moved.
`Filterable` excludes both and is enough for the meaning to be preserved; that
it is not necessary is due to messages in which the wrong bytes happen to read
the same.
-/

namespace RootlessRelay

open DnsMessage (NameAt QuestionAt RecordAt SectionAt Parses Parsed Decodes)

/-- The inner loop over a name of the question section: it stops in front of a
zero, or behind a pointer. -/
def skipQuestionName (dnsPacket : Bytes) (offset : Nat) : Nat :=
  if offset < dnsPacket.length ∧ byteAt dnsPacket offset ≠ 0 then
    let len := byteAt dnsPacket offset
    if len &&& 0xC0 = 0xC0 then offset + 2 else skipQuestionName dnsPacket (offset + len + 1)
  else offset
termination_by dnsPacket.length - offset

/-- One round of the question loop: the name, the zero byte if there is one, and
four bytes. -/
def skipQuestion (dnsPacket : Bytes) (offset : Nat) : Nat :=
  let offset := skipQuestionName dnsPacket offset
  let offset :=
    if offset < dnsPacket.length ∧ byteAt dnsPacket offset = 0 then offset + 1 else offset
  offset + 4

/-- The loop over the questions, with the number of rounds left. -/
def skipQuestions (dnsPacket : Bytes) : Nat → Nat → Nat
  | 0, offset => offset
  | qdcount + 1, offset => skipQuestions dnsPacket qdcount (skipQuestion dnsPacket offset)

/-- The inner loop over the name of an answer, which steps over the zero itself. -/
def skipName (dnsPacket : Bytes) (offset : Nat) : Nat :=
  if offset < dnsPacket.length then
    let len := byteAt dnsPacket offset
    if len = 0 then offset + 1
    else if len &&& 0xC0 = 0xC0 then offset + 2
    else skipName dnsPacket (offset + len + 1)
  else offset
termination_by dnsPacket.length - offset

/-- The variables of the loop over the answers, with the values they start with. -/
structure AnswerScan where
  keptAnswers : List Bytes := []
  newAncount : Nat := 0
  hasIPv6Only : Bool := true
  offset : Nat
  deriving DecidableEq, Repr

/-- The loop over the answers, with the number of rounds left. It ends early at
the end of the packet and at a record that is cut off. -/
def scanAnswers (dnsPacket : Bytes) : Nat → AnswerScan → AnswerScan
  | 0, s => s
  | ancount + 1, s =>
      if s.offset < dnsPacket.length then
        let recordStart := s.offset
        let offset := skipName dnsPacket s.offset
        if offset + 10 > dnsPacket.length then { s with offset }
        else
          let type := readUInt16BE dnsPacket offset
          let rdlength := readUInt16BE dnsPacket (offset + 8)
          let recordEnd := offset + 10 + rdlength
          if recordEnd > dnsPacket.length then { s with offset }
          else if type ≠ 28 then
            scanAnswers dnsPacket ancount
              { keptAnswers := s.keptAnswers ++ [slice dnsPacket recordStart recordEnd]
                newAncount := s.newAncount + 1
                hasIPv6Only := false
                offset := recordEnd }
          else scanAnswers dnsPacket ancount { s with offset := recordEnd }
      else s

/-- `filterDNSResponse`: the packet as it is, or its head with a new count, the
answers that are kept, and what stands behind the last one that was read. -/
def filterDNSResponse (dnsPacket : Bytes) : Bytes :=
  if dnsPacket.length < 12 then dnsPacket
  else
    let qdcount := readUInt16BE dnsPacket 4
    let ancount := readUInt16BE dnsPacket 6
    if ancount = 0 then dnsPacket
    else
      let questionStart := 12
      let offset := skipQuestions dnsPacket qdcount questionStart
      let questionSection := slice dnsPacket questionStart offset
      let s := scanAnswers dnsPacket ancount { offset }
      if s.hasIPv6Only ∧ s.keptAnswers.length = 0 then dnsPacket
      else
        let remainingData := dnsPacket.drop s.offset
        if s.newAncount < ancount then
          let newHeader := writeUInt16BE (dnsPacket.take 12) s.newAncount 6
          newHeader ++ questionSection ++ s.keptAnswers.flatten ++ remainingData
        else dnsPacket

/-- The records the filter keeps: all but those of type AAAA. -/
def keepsAnswer (r : DnsMessage.Record) : Bool := r.type ≠ 28

/-- The header announces as many questions and answers as the message has: the
questions from the header up to `a`, the answers from there up to `b`. What
stands behind them is not looked at. -/
structure Announces (dnsPacket : Bytes) (questions : List (DnsMessage.Located DnsMessage.Question))
    (answers : List (DnsMessage.Located DnsMessage.Record)) (a b : Nat) : Prop where
  header : 12 ≤ dnsPacket.length
  questionCount : questions.length = DnsMessage.word dnsPacket 4
  answerCount : answers.length = DnsMessage.word dnsPacket 6
  questions : SectionAt (QuestionAt dnsPacket) 12 questions a
  answers : SectionAt (RecordAt dnsPacket) a answers b

/-- The filter deletes the AAAA records of a response that has other answers,
and nothing else: its output means what its input means without them. -/
def FilterPreserves (dnsPacket : Bytes) : Prop :=
  ∀ msg, Decodes dnsPacket msg → (∃ r ∈ msg.answers, r.type ≠ 28) →
    Decodes (filterDNSResponse dnsPacket)
      { msg with answers := msg.answers.filter fun r => r.type ≠ 28 }

/-- The inputs the filter is right about. No question is written with a pointer
in front of a zero byte, the high byte of a type below 256; and no name that is
kept follows a pointer to the first AAAA record among the answers or behind its
start. -/
structure Filterable (p : Parsed) (length : Nat) : Prop where
  questions : ∀ q ∈ p.questions, q.reach = 0 ∨ 256 ≤ q.value.type
  anchored : p.Anchored keepsAnswer length

variable {dnsPacket : Bytes} {off next stop reach : Nat} {name : DnsMessage.Name} {p : Parsed}

theorem pointer_iff {b : Nat} (h : b < 256) : b &&& 0xC0 = 0xC0 ↔ 192 ≤ b := by
  revert b
  decide +kernel

theorem byteAt_of_getElem? {i : Nat} {b : UInt8} (h : dnsPacket[i]? = some b) :
    i < dnsPacket.length ∧ byteAt dnsPacket i = b.toNat := by
  obtain ⟨hlt, hb⟩ := List.getElem?_eq_some_iff.mp h
  exact ⟨hlt, by rw [byteAt_of_lt hlt, hb]⟩

/-- The filter finds the end of every name of the grammar. -/
theorem skipName_eq (h : NameAt dnsPacket off name next reach) : skipName dnsPacket off = next := by
  induction h with
  | root zero =>
      obtain ⟨hlt, hzero⟩ := byteAt_of_getElem? zero
      rw [skipName, if_pos hlt]
      exact if_pos hzero
  | label head positive short tail ih =>
      obtain ⟨hlt, hlen⟩ := byteAt_of_getElem? head
      rw [skipName, if_pos hlt, hlen]
      dsimp only
      rw [if_neg (by omega), if_neg (by rw [pointer_iff (UInt8.toNat_lt _)]; omega)]
      rw [Nat.add_right_comm]
      exact ih
  | pointer first marked second body target ih =>
      obtain ⟨hlt, hhigh⟩ := byteAt_of_getElem? first
      rw [skipName, if_pos hlt, hhigh]
      dsimp only
      rw [if_neg (by omega), if_pos ((pointer_iff (UInt8.toNat_lt _)).mpr marked)]

/-- The loop of the questions stops at the zero of a name, or behind its
pointer. Which of the two it was, the code does not remember. -/
theorem skipQuestionName_spec (h : NameAt dnsPacket off name next reach) :
    skipQuestionName dnsPacket off = next ∧ reach ≠ 0 ∨
      skipQuestionName dnsPacket off + 1 = next ∧
        dnsPacket[skipQuestionName dnsPacket off]? = some 0 ∧ reach = 0 := by
  induction h with
  | root zero =>
      obtain ⟨-, hzero⟩ := byteAt_of_getElem? zero
      rw [skipQuestionName, if_neg (fun hno => hno.2 hzero)]
      exact .inr ⟨rfl, zero, rfl⟩
  | label head positive short tail ih =>
      obtain ⟨hlt, hlen⟩ := byteAt_of_getElem? head
      rw [skipQuestionName, if_pos ⟨hlt, by omega⟩, hlen]
      dsimp only
      rw [if_neg (by rw [pointer_iff (UInt8.toNat_lt _)]; omega), Nat.add_right_comm]
      exact ih
  | pointer first marked second body target ih =>
      obtain ⟨hlt, hhigh⟩ := byteAt_of_getElem? first
      have hpos := target.lt
      rw [skipQuestionName, if_pos ⟨hlt, by omega⟩, hhigh]
      dsimp only
      rw [if_pos ((pointer_iff (UInt8.toNat_lt _)).mpr marked)]
      exact .inl ⟨rfl, by omega⟩

/-- It finds the end of a question, too, unless a pointer stands in front of a
small QTYPE. -/
theorem skipQuestion_eq {q : DnsMessage.Question} (h : QuestionAt dnsPacket off q stop reach)
    (hplain : reach = 0 ∨ 256 ≤ q.type) : skipQuestion dnsPacket off = stop := by
  obtain ⟨⟨next, hname, rfl, htype, -⟩, -⟩ := h
  unfold skipQuestion
  obtain ⟨hnext, hpointer⟩ | ⟨hnext, hzero, -⟩ := skipQuestionName_spec hname
  · have hlarge := hplain.resolve_left hpointer
    have hbyte : byteAt dnsPacket next ≠ 0 := by
      intro hzero
      have hlow : byteAt dnsPacket (next + 1) < 256 := UInt8.toNat_lt _
      have hword : q.type = byteAt dnsPacket next * 256 + byteAt dnsPacket (next + 1) := htype
      omega
    rw [hnext]
    dsimp only
    rw [if_neg (fun hno => hbyte hno.2)]
  · have hstop : skipQuestionName dnsPacket off < dnsPacket.length ∧
        byteAt dnsPacket (skipQuestionName dnsPacket off) = 0 := byteAt_of_getElem? hzero
    dsimp only
    rw [if_pos hstop, hnext]

theorem skipQuestions_eq {questions : List (DnsMessage.Located DnsMessage.Question)}
    (h : SectionAt (QuestionAt dnsPacket) off questions stop)
    (hplain : ∀ q ∈ questions, q.reach = 0 ∨ 256 ≤ q.value.type) :
    skipQuestions dnsPacket questions.length off = stop := by
  induction h with
  | nil => rfl
  | cons head tail ih =>
      obtain ⟨hfirst, hrest⟩ := List.forall_mem_cons.mp hplain
      rw [List.length_cons, skipQuestions, skipQuestion_eq head hfirst]
      exact ih hrest

/-- One round of the loop over the answers, at a record: the step of the
induction over a section. -/
theorem scanAnswers_step {r : DnsMessage.Record} (h : RecordAt dnsPacket off r stop reach)
    (ancount : Nat) (s : AnswerScan) (hoffset : s.offset = off) :
    scanAnswers dnsPacket (ancount + 1) s = scanAnswers dnsPacket ancount
      (if keepsAnswer r then
        { keptAnswers := s.keptAnswers ++ [slice dnsPacket off stop]
          newAncount := s.newAncount + 1
          hasIPv6Only := false
          offset := stop }
      else { s with offset := stop }) := by
  have hlt := h.lt
  have hfits := h.fits
  obtain ⟨⟨next, owned, held, hname, hstop, -, htype, -⟩, -⟩ := h
  have hend : next + 10 + readUInt16BE dnsPacket (next + 8) = stop := hstop.symm
  have hkind : readUInt16BE dnsPacket next = r.type := htype.symm
  rw [scanAnswers, if_pos (by omega)]
  dsimp only
  rw [hoffset, skipName_eq hname, if_neg (by omega), hend, if_neg (by omega), hkind]
  unfold keepsAnswer
  by_cases hkeep : r.type ≠ 28
  · rw [if_pos hkeep, if_pos (decide_eq_true hkeep)]
  · rw [if_neg hkeep, if_neg (by simpa using hkeep)]

/-- The whole loop, on a section of records: it keeps what it should and ends
where the section does. -/
theorem scanAnswers_eq {answers : List (DnsMessage.Located DnsMessage.Record)}
    (h : SectionAt (RecordAt dnsPacket) off answers stop) (s : AnswerScan)
    (hoffset : s.offset = off) :
    scanAnswers dnsPacket answers.length s =
      { keptAnswers := s.keptAnswers ++
          (answers.filter fun r => keepsAnswer r.value).map fun r => slice dnsPacket r.start r.stop
        newAncount := s.newAncount + (answers.filter fun r => keepsAnswer r.value).length
        hasIPv6Only := s.hasIPv6Only && !(answers.any fun r => keepsAnswer r.value)
        offset := stop } := by
  induction h generalizing s with
  | nil =>
      obtain ⟨keptAnswers, newAncount, hasIPv6Only, offset⟩ := s
      dsimp only at hoffset
      simp [scanAnswers, hoffset]
  | cons head tail ih =>
      rw [List.length_cons, scanAnswers_step head _ s hoffset, List.filter_cons, List.any_cons]
      dsimp only
      split
      · rename_i hkeep
        rw [ih _ rfl, hkeep]
        simp [Nat.add_assoc, Nat.add_comm 1]
      · rename_i hdrop
        rw [ih _ rfl, Bool.eq_false_iff.mpr hdrop, Bool.false_or]

theorem announces_of_parses (h : Parses dnsPacket p) {a b : Nat}
    (hquestions : SectionAt (QuestionAt dnsPacket) 12 p.questions a)
    (hanswers : SectionAt (RecordAt dnsPacket) a p.answers b) :
    Announces dnsPacket p.questions p.answers a b :=
  ⟨h.header, h.questions, h.answers, hquestions, hanswers⟩

/-- The filter, on a message whose questions its loop steps over as they stand.
The packet is built anew when there is a record to keep and one to delete. -/
theorem filterDNSResponse_eq {questions : List (DnsMessage.Located DnsMessage.Question)}
    {answers : List (DnsMessage.Located DnsMessage.Record)} {a b : Nat}
    (h : Announces dnsPacket questions answers a b)
    (hstart : skipQuestions dnsPacket questions.length 12 = a) :
    filterDNSResponse dnsPacket =
      if (answers.any fun r => keepsAnswer r.value) = true ∧
          (answers.filter fun r => keepsAnswer r.value).length < answers.length then
        writeUInt16BE (dnsPacket.take 12) (answers.filter fun r => keepsAnswer r.value).length 6 ++
          slice dnsPacket 12 a ++ DnsMessage.kept dnsPacket keepsAnswer answers ++
          dnsPacket.drop b
      else dnsPacket := by
  have hqdcount : readUInt16BE dnsPacket 4 = questions.length := h.questionCount.symm
  have hancount : readUInt16BE dnsPacket 6 = answers.length := h.answerCount.symm
  unfold filterDNSResponse
  dsimp only
  rw [if_neg (Nat.not_lt.mpr h.header), hqdcount, hancount, hstart, scanAnswers_eq h.answers _ rfl]
  dsimp only
  by_cases hany : (answers.any fun r => keepsAnswer r.value) = true
  · obtain ⟨r, hr, -⟩ := List.any_eq_true.mp hany
    have hpos := List.length_pos_of_mem hr
    rw [hany, if_neg (Nat.ne_of_gt hpos), if_neg (by simp), Nat.zero_add]
    simp only [true_and]
    rfl
  · have hnone : answers.filter (fun r => keepsAnswer r.value) = [] :=
      List.filter_eq_nil_iff.mpr fun r hr hkeep => hany (List.any_eq_true.mpr ⟨r, hr, hkeep⟩)
    have hkeepsNone : ¬((answers.any fun r => keepsAnswer r.value) = true ∧
        (answers.filter fun r => keepsAnswer r.value).length < answers.length) :=
      fun hboth => hany hboth.1
    rw [if_neg hkeepsNone, Bool.eq_false_iff.mpr hany, hnone]
    exact (if_congr Iff.rfl rfl (if_pos (by simp))).trans (ite_self dnsPacket)

/-- The header with a new count of answers. Its other words are as they were. -/
theorem header_write (h : 12 ≤ dnsPacket.length) {value : Nat} (hvalue : value ≤ 0xffff)
    (body : Bytes) :
    readUInt16BE (writeUInt16BE (dnsPacket.take 12) value 6 ++ body) 6 = value ∧
      ∀ i ∈ [0, 2, 4, 8, 10],
        readUInt16BE (writeUInt16BE (dnsPacket.take 12) value 6 ++ body) i =
          readUInt16BE dnsPacket i := by
  have hsix : ((dnsPacket.take 12).take 6).length = 6 := by
    rw [List.length_take, List.length_take]
    omega
  constructor
  · have hword := readUInt16BE_bytes hvalue ((dnsPacket.take 12).take 6)
      ((dnsPacket.take 12).drop 8 ++ body)
    rw [hsix, ← List.append_assoc] at hword
    exact hword
  · have hsame : ∀ i, i < 12 → i ≠ 6 → i ≠ 7 →
        byteAt (writeUInt16BE (dnsPacket.take 12) value 6 ++ body) i = byteAt dnsPacket i := by
      intro i hlt hsix' hseven
      have hwrite : (writeUInt16BE (dnsPacket.take 12) value 6)[i]? = dnsPacket[i]? := by
        unfold writeUInt16BE
        by_cases hfront : i < 6
        · rw [List.append_assoc, List.getElem?_append_left (by omega), List.getElem?_take,
            List.getElem?_take, if_pos hfront, if_pos hlt]
        · have hlength : ((dnsPacket.take 12).take 6 ++ OnesComplement.bytes value).length = 8 := by
            rw [List.length_append, hsix]
            rfl
          rw [List.getElem?_append_right (by omega), hlength, List.getElem?_drop,
            List.getElem?_take, if_pos (by omega)]
          congr 1
          omega
      have hlength : (writeUInt16BE (dnsPacket.take 12) value 6).length = 12 := by
        rw [writeUInt16BE_length (by rw [List.length_take]; omega), List.length_take]
        omega
      rw [byteAt, byteAt, List.getD_eq_getElem?_getD, List.getD_eq_getElem?_getD,
        List.getElem?_append_left (by omega), hwrite]
    intro i hi
    simp only [List.mem_cons, List.not_mem_nil, or_false] at hi
    rw [readUInt16BE, readUInt16BE, hsame i (by omega) (by omega) (by omega),
      hsame (i + 1) (by omega) (by omega) (by omega)]

/-- With AAAA records to delete, the output is the input without their bytes.
The questions have to be plain for the loop to find the answers. -/
theorem deletes_filterDNSResponse (h : Parses dnsPacket p)
    (hplain : ∀ q ∈ p.questions, q.reach = 0 ∨ 256 ≤ q.value.type)
    (hkept : ∃ r ∈ p.answers, keepsAnswer r.value = true)
    (hsome : (p.answers.filter fun r => keepsAnswer r.value).length < p.answers.length) :
    DnsMessage.Deletes dnsPacket (filterDNSResponse dnsPacket) p keepsAnswer := by
  have hcount : (p.answers.filter fun r => keepsAnswer r.value).length ≤ 0xffff := by
    have hle := readUInt16BE_le dnsPacket 6
    have hancount : p.answers.length = readUInt16BE dnsPacket 6 := h.answers
    omega
  have hlength : (writeUInt16BE (dnsPacket.take 12)
      (p.answers.filter fun r => keepsAnswer r.value).length 6).length = 12 := by
    have := h.header
    rw [writeUInt16BE_length (by rw [List.length_take]; omega), List.length_take]
    omega
  have heq : ∀ a b, SectionAt (QuestionAt dnsPacket) 12 p.questions a →
      SectionAt (RecordAt dnsPacket) a p.answers b → filterDNSResponse dnsPacket =
        writeUInt16BE (dnsPacket.take 12) (p.answers.filter fun r => keepsAnswer r.value).length 6 ++
          (slice dnsPacket 12 a ++
            (DnsMessage.kept dnsPacket keepsAnswer p.answers ++ dnsPacket.drop b)) := by
    intro a b hquestions hanswers
    rw [filterDNSResponse_eq (announces_of_parses h hquestions hanswers)
      (skipQuestions_eq hquestions hplain), if_pos ⟨List.any_eq_true.mpr hkept, hsome⟩,
      List.append_assoc, List.append_assoc]
  obtain ⟨a, b, c, hquestions, hanswers, -⟩ := h.sections
  obtain ⟨hsix, hrest⟩ := header_write h.header hcount
    (slice dnsPacket 12 a ++ (DnsMessage.kept dnsPacket keepsAnswer p.answers ++ dnsPacket.drop b))
  rw [← heq a b hquestions hanswers] at hsix hrest
  refine ⟨?_, hrest, hsix, fun a' b' hquestions' hanswers' => ?_⟩
  · rw [heq a b hquestions hanswers, List.length_append, hlength]
    exact Nat.le_add_right _ _
  · rw [heq a' b' hquestions' hanswers']
    exact List.drop_left' hlength

/-- The filter keeps the meaning of every response it can handle: the output
decodes to the input without its AAAA records. -/
theorem filterDNSResponse_preserves (h : Parses dnsPacket p)
    (hfilterable : Filterable p dnsPacket.length) : FilterPreserves dnsPacket := by
  rintro msg ⟨p', hp', rfl⟩ ⟨r, hr, htype⟩
  obtain rfl := h.unique hp'
  have hkept : ∃ r ∈ p.answers, keepsAnswer r.value = true := by
    obtain ⟨l, hl, rfl⟩ := List.mem_map.mp hr
    exact ⟨l, hl, decide_eq_true htype⟩
  by_cases hsome : (p.answers.filter fun r => keepsAnswer r.value).length < p.answers.length
  · exact h.delete (deletes_filterDNSResponse h hfilterable.questions hkept hsome)
      hfilterable.anchored
  · have hall : p.answers.filter (fun r => keepsAnswer r.value) = p.answers :=
      List.Sublist.eq_of_length_le List.filter_sublist (Nat.not_lt.mp hsome)
    have hmessage : p.message.answers.filter keepsAnswer = p.message.answers := by
      change (p.answers.map _).filter _ = p.answers.map _
      rw [List.filter_map]
      exact congrArg (List.map _) hall
    obtain ⟨a, b, c, hquestions, hanswers, -⟩ := h.sections
    rw [filterDNSResponse_eq (announces_of_parses h hquestions hanswers)
      (skipQuestions_eq hquestions hfilterable.questions), if_neg fun hboth => hsome hboth.2]
    change Decodes dnsPacket { p.message with answers := p.message.answers.filter keepsAnswer }
    rw [hmessage]
    exact ⟨p, h, rfl⟩

/-- A question for all records of `a`, answered by an AAAA record of `b` and by
an A record whose owner is a pointer to `target`. -/
def exampleResponse (target : UInt8) : Bytes :=
  [0x12, 0x34, 0x81, 0x80, 0, 1, 0, 2, 0, 0, 0, 0] ++ [1, 97, 0, 0, 255, 0, 1] ++
    ([1, 98, 0, 0, 28, 0, 1, 0, 0, 0, 60, 0, 16] ++ List.replicate 16 0) ++
    [0xc0, target, 0, 1, 0, 1, 0, 0, 0, 60, 0, 4, 192, 0, 2, 1]

/-- The parts of the example, whose second answer has the owner that its pointer
leads to. -/
def exampleParsed (owner : DnsMessage.Name) (reach : Nat) : Parsed where
  id := 0x1234
  flags := 0x8180
  questions := [⟨⟨[[97]], 255, 1⟩, 12, 19, 0⟩]
  answers := [⟨⟨[[98]], 28, 1, 60, [.bytes (List.replicate 16 0)]⟩, 19, 48, 0⟩,
    ⟨⟨owner, 1, 1, 60, [.bytes [192, 0, 2, 1]]⟩, 48, 64, reach⟩]
  authority := []
  additional := []

/-- The words that stand in it, whatever the target of the pointer. -/
def exampleWords : List (Nat × Nat) :=
  [(0, 0x1234), (2, 0x8180), (4, 1), (6, 2), (8, 0), (10, 0), (15, 255), (17, 1), (22, 28), (24, 1),
    (26, 0), (28, 60), (30, 16), (50, 1), (52, 1), (54, 0), (56, 60), (58, 4)]

theorem word_exampleResponse (target : UInt8) :
    ∀ e ∈ exampleWords, DnsMessage.word (exampleResponse target) e.1 = e.2 := by
  simp [exampleWords, DnsMessage.word, DnsMessage.byte, exampleResponse]

/-- The example is a message of the grammar wherever its pointer leads to a
name. -/
theorem parses_exampleResponse {target : UInt8} (hbody : 12 ≤ target.toNat)
    (h : NameAt (exampleResponse target) target.toNat name next reach) :
    Parses (exampleResponse target) (exampleParsed name (max reach next)) := by
  have hlength : (exampleResponse target).length = 64 := rfl
  have hword : ∀ i value, (i, value) ∈ exampleWords →
      value = DnsMessage.word (exampleResponse target) i :=
    fun i value hmem => (word_exampleResponse target _ hmem).symm
  have hlong : ∀ i, (i, 0) ∈ exampleWords → (i + 2, 60) ∈ exampleWords →
      60 = DnsMessage.long (exampleResponse target) i := by
    intro i hhigh hlow
    rw [DnsMessage.long, ← hword i 0 hhigh, ← hword (i + 2) 60 hlow]
  have hquestionLabel : (exampleResponse target)[12]? = some 1 := rfl
  have hownerLabel : (exampleResponse target)[19]? = some 1 := rfl
  have hquestion : QuestionAt (exampleResponse target) 12 ⟨[[97]], 255, 1⟩ 19 0 :=
    ⟨⟨15, .label hquestionLabel (by decide) (by decide) (.root rfl), rfl, hword 15 255 (by decide),
      hword 17 1 (by decide)⟩, by omega⟩
  have hfirst : RecordAt (exampleResponse target) 19
      ⟨[[98]], 28, 1, 60, [.bytes (List.replicate 16 0)]⟩ 48 0 :=
    ⟨⟨22, 0, 0, .label hownerLabel (by decide) (by decide) (.root rfl),
      by rw [← hword 30 16 (by decide)], rfl, hword 22 28 (by decide), hword 24 1 (by decide),
      hlong 26 (by decide) (by decide), .rest (by decide)⟩, by omega⟩
  have howner : NameAt (exampleResponse target) 48 name 50 (max reach next) := by
    have hhigh : (exampleResponse target)[48]? = some 0xc0 := rfl
    have hlow : (exampleResponse target)[49]? = some target := rfl
    have htarget : ((0xc0 : UInt8).toNat - 192) * 256 + target.toNat = target.toNat := by
      rw [show (0xc0 : UInt8).toNat - 192 = 0 from rfl, Nat.zero_mul, Nat.zero_add]
    exact .pointer hhigh (by decide) hlow (by rw [htarget]; exact hbody) (by rw [htarget]; exact h)
  have hsecond : RecordAt (exampleResponse target) 48 ⟨name, 1, 1, 60, [.bytes [192, 0, 2, 1]]⟩ 64
      (max reach next) :=
    ⟨⟨50, max reach next, 0, howner, by rw [← hword 58 4 (by decide)], (Nat.max_zero _).symm,
      hword 50 1 (by decide), hword 52 1 (by decide), hlong 54 (by decide) (by decide), .rest (by decide)⟩,
      by omega⟩
  exact ⟨by omega, hword 0 0x1234 (by decide), hword 2 0x8180 (by decide), hword 4 1 (by decide),
    hword 6 2 (by decide), hword 8 0 (by decide), hword 10 0 (by decide), 19, 64, 64,
    .cons hquestion .nil, .cons hfirst (.cons hsecond .nil), .nil, .nil⟩

/-- An owner that points to the question is read as before, since the question
stays in place. -/
theorem filterDNSResponse_preserves_question :
    Decodes (filterDNSResponse (exampleResponse 12))
      ⟨0x1234, 0x8180, [⟨[[97]], 255, 1⟩], [⟨[[97]], 1, 1, 60, [.bytes [192, 0, 2, 1]]⟩], [], []⟩ := by
  have hlabel : (exampleResponse 12)[12]? = some 1 := rfl
  have hname : NameAt (exampleResponse 12) 12 [[97]] 15 0 :=
    .label hlabel (by decide) (by decide) (.root rfl)
  have hparses : Parses (exampleResponse 12) (exampleParsed [[97]] 15) :=
    parses_exampleResponse (by decide) hname
  have hfilterable : Filterable (exampleParsed [[97]] 15) (exampleResponse 12).length := by
    refine ⟨?_, ?_, ?_, by rintro r ⟨⟩, by rintro r ⟨⟩⟩
    · exact List.forall_mem_singleton.mpr (.inl rfl)
    · exact List.forall_mem_singleton.mpr (Nat.zero_le _)
    · refine List.forall_mem_cons.mpr ⟨fun _ => Nat.zero_le _, ?_⟩
      exact List.forall_mem_singleton.mpr fun _ => by decide
  exact filterDNSResponse_preserves hparses hfilterable _ ⟨_, hparses, rfl⟩
    ⟨_, List.mem_cons_of_mem _ (List.mem_singleton_self _), by decide⟩

/-- A name never starts with a pointer to itself: it would have to be expanded
before it is expanded. -/
theorem not_self_pointer {high low : UInt8} (first : dnsPacket[off]? = some high)
    (marked : 192 ≤ high.toNat) (second : dnsPacket[off + 1]? = some low)
    (hself : (high.toNat - 192) * 256 + low.toNat = off) :
    ¬NameAt dnsPacket off name next reach := by
  intro h
  generalize hstart : off = start at h
  induction h with
  | root zero =>
      subst hstart
      cases zero.symm.trans first
      exact absurd marked (by decide)
  | label head positive short tail ih =>
      subst hstart
      cases head.symm.trans first
      omega
  | pointer first' marked' second' body target ih =>
      subst hstart
      cases first'.symm.trans first
      cases second'.symm.trans second
      exact ih hself.symm

/-- The owner of the A record points to the owner of the AAAA record in front of
it. The filter deletes that one, and the pointer is left pointing to itself. -/
theorem owner_of_deleted_lost : ¬FilterPreserves (exampleResponse 19) := by
  have hlabel : (exampleResponse 19)[19]? = some 1 := rfl
  have hname : NameAt (exampleResponse 19) 19 [[98]] 22 0 :=
    .label hlabel (by decide) (by decide) (.root rfl)
  have hparses : Parses (exampleResponse 19) (exampleParsed [[98]] 22) :=
    parses_exampleResponse (by decide) hname
  intro hpreserves
  obtain ⟨p, hp, hmessage⟩ := hpreserves _ ⟨_, hparses, rfl⟩
    ⟨_, List.mem_cons_of_mem _ (List.mem_singleton_self _), by decide⟩
  have hout : filterDNSResponse (exampleResponse 19) =
      [0x12, 0x34, 0x81, 0x80, 0, 1, 0, 1, 0, 0, 0, 0] ++ [1, 97, 0, 0, 255, 0, 1] ++
        [0xc0, 19, 0, 1, 0, 1, 0, 0, 0, 60, 0, 4, 192, 0, 2, 1] := by decide +kernel
  rw [hout] at hp
  have hquestionLabel : ([0x12, 0x34, 0x81, 0x80, 0, 1, 0, 1, 0, 0, 0, 0] ++
      [1, 97, 0, 0, 255, 0, 1] ++
      [0xc0, 19, 0, 1, 0, 1, 0, 0, 0, 60, 0, 4, 192, 0, 2, 1] : Bytes)[12]? = some 1 := rfl
  have hquestionName := NameAt.label hquestionLabel (by decide) (by decide) (.root rfl)
  obtain ⟨a, b, c, hquestions, hanswers, -⟩ := hp.sections
  have hq : p.questions.map DnsMessage.Located.value = [⟨[[97]], 255, 1⟩] :=
    congrArg DnsMessage.Message.questions hmessage
  have ha : p.answers.map DnsMessage.Located.value =
      [⟨[[98]], 1, 1, 60, [.bytes [192, 0, 2, 1]]⟩] :=
    congrArg DnsMessage.Message.answers hmessage
  generalize p.questions = questions at hquestions hq
  generalize p.answers = answers at hanswers ha
  cases hquestions with
  | nil => cases hq
  | cons hquestion hrest =>
      obtain ⟨-, hnil⟩ := List.cons.inj hq
      obtain rfl := List.map_eq_nil_iff.mp hnil
      cases hrest
      obtain ⟨⟨next, hread, rfl, -⟩, -⟩ := hquestion
      obtain ⟨-, rfl, -⟩ := hread.unique hquestionName
      cases hanswers with
      | nil => cases ha
      | cons hanswer hrest =>
          obtain ⟨⟨next, owned, held, howner, -⟩, -⟩ := hanswer
          exact not_self_pointer rfl (by decide) rfl (by decide) howner

end RootlessRelay

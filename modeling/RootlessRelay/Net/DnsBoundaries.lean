import RootlessRelay.Net.DnsFilter
import RootlessRelay.Net.IPv4Packet

/-!
# Record boundaries of the DNS filter

The loops of `filterDNSResponse` once more, with reads that fail outside of the
packet and with the offsets that they come to: where each question ends, and
where each answer starts and ends. They never fail. On a well-formed response
the answers are found where they are unless a question with a compressed name is
in front of them: the loop steps over a zero byte behind any name, and behind a
pointer that is the high byte of the type.

The condition is therefore on the questions alone, on whether a name ends in a
pointer and on the type behind it. It is exact: `delimits_iff` says of every
well-formed response that the boundaries are found exactly if it holds.
-/

namespace RootlessRelay

open DnsMessage (NameAt QuestionAt RecordAt SectionAt Parses Parsed)

/-- `skipQuestionName` with every read checked; `none` is a read out of bounds. -/
def skipQuestionName? (dnsPacket : Bytes) (offset : Nat) : Option Nat :=
  if offset < dnsPacket.length then do
    let len ← byteAt? dnsPacket offset
    if len = 0 then some offset
    else if len &&& 0xC0 = 0xC0 then some (offset + 2)
    else skipQuestionName? dnsPacket (offset + len + 1)
  else some offset
termination_by dnsPacket.length - offset

/-- `skipQuestion` with every read checked. -/
def skipQuestion? (dnsPacket : Bytes) (offset : Nat) : Option Nat := do
  let offset ← skipQuestionName? dnsPacket offset
  if offset < dnsPacket.length then do
    let len ← byteAt? dnsPacket offset
    some ((if len = 0 then offset + 1 else offset) + 4)
  else some (offset + 4)

/-- Where each question ends, for the loop: one offset for each round. -/
def questionEnds? (dnsPacket : Bytes) : Nat → Nat → Option (List Nat)
  | 0, _ => some []
  | qdcount + 1, offset => do
      let stop ← skipQuestion? dnsPacket offset
      let ends ← questionEnds? dnsPacket qdcount stop
      some (stop :: ends)

/-- `skipName` with every read checked. -/
def skipName? (dnsPacket : Bytes) (offset : Nat) : Option Nat :=
  if offset < dnsPacket.length then do
    let len ← byteAt? dnsPacket offset
    if len = 0 then some (offset + 1)
    else if len &&& 0xC0 = 0xC0 then some (offset + 2)
    else skipName? dnsPacket (offset + len + 1)
  else some offset
termination_by dnsPacket.length - offset

/-- The variables of one round of the loop over the answers: where the record
starts and ends, and its type. -/
structure AnswerBounds where
  recordStart : Nat
  recordEnd : Nat
  type : Nat
  deriving DecidableEq, Repr

/-- The rounds of the loop over the answers, up to the first that leaves it. -/
def answers? (dnsPacket : Bytes) : Nat → Nat → Option (List AnswerBounds)
  | 0, _ => some []
  | ancount + 1, recordStart =>
      if recordStart < dnsPacket.length then do
        let offset ← skipName? dnsPacket recordStart
        if offset + 10 > dnsPacket.length then some []
        else do
          let type ← readUInt16BE? dnsPacket offset
          let rdlength ← readUInt16BE? dnsPacket (offset + 8)
          let recordEnd := offset + 10 + rdlength
          if recordEnd > dnsPacket.length then some []
          else do
            let rest ← answers? dnsPacket ancount recordEnd
            some (⟨recordStart, recordEnd, type⟩ :: rest)
      else some []

/-- The offsets the filter goes by. -/
structure Boundaries where
  questionEnds : List Nat := []
  answers : List AnswerBounds := []
  deriving DecidableEq, Repr

/-- What `filterDNSResponse` finds; `none` is a read out of bounds. A packet
without answers is not looked at. -/
def boundaries? (dnsPacket : Bytes) : Option Boundaries :=
  if dnsPacket.length < 12 then some {}
  else do
    let qdcount ← readUInt16BE? dnsPacket 4
    let ancount ← readUInt16BE? dnsPacket 6
    if ancount = 0 then some {}
    else do
      let questionEnds ← questionEnds? dnsPacket qdcount 12
      let answers ← answers? dnsPacket ancount (questionEnds.getLastD 12)
      some { questionEnds, answers }

/-- No read is out of bounds, the loop over the questions is at the end of each
after its round, and the answers that are found are the answers. -/
def Delimits (dnsPacket : Bytes) (p : Parsed) : Prop :=
  ∃ found, boundaries? dnsPacket = some found ∧ (p.answers ≠ [] →
    found.questionEnds = p.questions.map DnsMessage.Located.stop ∧
    found.answers = p.answers.map fun r => ⟨r.start, r.stop, r.value.type⟩)

variable {dnsPacket : Bytes} {off stop reach : Nat} {p : Parsed}

/-- All bytes that the loop reads for the name lie inside the packet. -/
theorem skipQuestionName?_eq (dnsPacket : Bytes) (offset : Nat) :
    skipQuestionName? dnsPacket offset = some (skipQuestionName dnsPacket offset) := by
  fun_induction skipQuestionName dnsPacket offset with
  | case1 offset h len hpointer =>
      rw [skipQuestionName?, if_pos h.1, byteAt?_eq h.1]
      simp [h.2, hpointer, len]
  | case2 offset h len hpointer ih =>
      rw [skipQuestionName?, if_pos h.1, byteAt?_eq h.1, ← ih]
      simp [h.2, hpointer, len]
  | case3 offset h =>
      rw [skipQuestionName?]
      by_cases hlt : offset < dnsPacket.length
      · have hzero : byteAt dnsPacket offset = 0 := by
          by_contra hne
          exact h ⟨hlt, hne⟩
        rw [if_pos hlt, byteAt?_eq hlt]
        simp [hzero]
      · rw [if_neg hlt]

theorem skipQuestion?_eq (dnsPacket : Bytes) (offset : Nat) :
    skipQuestion? dnsPacket offset = some (skipQuestion dnsPacket offset) := by
  unfold skipQuestion? skipQuestion
  rw [skipQuestionName?_eq]
  generalize skipQuestionName dnsPacket offset = offset
  dsimp only [bind, Option.bind]
  by_cases hlt : offset < dnsPacket.length
  · rw [if_pos hlt, byteAt?_eq hlt]
    simp [hlt]
  · rw [if_neg hlt, if_neg (fun h => hlt h.1)]

theorem skipName?_eq (dnsPacket : Bytes) (offset : Nat) :
    skipName? dnsPacket offset = some (skipName dnsPacket offset) := by
  fun_induction skipName dnsPacket offset with
  | case1 offset h len hzero =>
      rw [skipName?, if_pos h, byteAt?_eq h]
      simp [hzero, len]
  | case2 offset h len hzero hpointer =>
      rw [skipName?, if_pos h, byteAt?_eq h]
      simp [hzero, hpointer, len]
  | case3 offset h len hzero hpointer ih =>
      rw [skipName?, if_pos h, byteAt?_eq h, ← ih]
      simp [hzero, hpointer, len]
  | case4 offset h => rw [skipName?, if_neg h]

/-- The offsets after the rounds of the question loop; the last is where it
ends. -/
theorem questionEnds?_eq (dnsPacket : Bytes) (qdcount offset : Nat) :
    ∃ ends, questionEnds? dnsPacket qdcount offset = some ends ∧
      ends.getLastD offset = skipQuestions dnsPacket qdcount offset := by
  induction qdcount generalizing offset with
  | zero => exact ⟨[], rfl, rfl⟩
  | succ qdcount ih =>
      obtain ⟨ends, hends, hlast⟩ := ih (skipQuestion dnsPacket offset)
      refine ⟨skipQuestion dnsPacket offset :: ends, ?_, ?_⟩
      · rw [questionEnds?, skipQuestion?_eq]
        dsimp only [bind, Option.bind]
        rw [hends]
      · rw [List.getLastD_cons, hlast]
        rfl

/-- The answers that the loop keeps are those it has found, but for AAAA. This
ties the offsets to the filter. -/
theorem answers?_eq (dnsPacket : Bytes) (ancount : Nat) (s : AnswerScan) :
    ∃ found, answers? dnsPacket ancount s.offset = some found ∧
      (scanAnswers dnsPacket ancount s).keptAnswers = s.keptAnswers ++
        (found.filter fun r => r.type ≠ 28).map fun r => slice dnsPacket r.recordStart r.recordEnd := by
  induction ancount generalizing s with
  | zero => exact ⟨[], rfl, (List.append_nil _).symm⟩
  | succ ancount ih =>
      rw [answers?, scanAnswers]
      by_cases hstart : s.offset < dnsPacket.length
      swap
      · rw [if_neg hstart, if_neg hstart]
        exact ⟨[], rfl, (List.append_nil _).symm⟩
      rw [if_pos hstart, if_pos hstart, skipName?_eq]
      dsimp only [bind, Option.bind]
      by_cases hshort : skipName dnsPacket s.offset + 10 > dnsPacket.length
      · rw [if_pos hshort, if_pos hshort]
        exact ⟨[], rfl, (List.append_nil _).symm⟩
      rw [if_neg hshort, if_neg hshort, readUInt16BE?_eq (by omega), readUInt16BE?_eq (by omega)]
      dsimp only
      generalize hend : skipName dnsPacket s.offset + 10 +
        readUInt16BE dnsPacket (skipName dnsPacket s.offset + 8) = recordEnd
      by_cases hlong : recordEnd > dnsPacket.length
      · rw [if_pos hlong, if_pos hlong]
        exact ⟨[], rfl, (List.append_nil _).symm⟩
      rw [if_neg hlong, if_neg hlong]
      by_cases htype : readUInt16BE dnsPacket (skipName dnsPacket s.offset) ≠ 28
      · rw [if_pos htype]
        obtain ⟨found, hfound, hkept⟩ := ih ⟨s.keptAnswers ++ [slice dnsPacket s.offset recordEnd],
          s.newAncount + 1, false, recordEnd⟩
        refine ⟨_, by rw [hfound], ?_⟩
        rw [hkept, List.filter_cons, if_pos (decide_eq_true htype)]
        simp
      · rw [if_neg htype]
        obtain ⟨found, hfound, hkept⟩ := ih { s with offset := recordEnd }
        refine ⟨_, by rw [hfound], ?_⟩
        rw [hkept, List.filter_cons, if_neg (by simpa using htype)]

/-- On no packet is anything read out of bounds, and what is found is what the
filter goes by. The packet need not be a response at all. -/
theorem boundaries?_eq (dnsPacket : Bytes) :
    ∃ found, boundaries? dnsPacket = some found ∧
      (12 ≤ dnsPacket.length → readUInt16BE dnsPacket 6 ≠ 0 →
        found.questionEnds.getLastD 12 = skipQuestions dnsPacket (readUInt16BE dnsPacket 4) 12 ∧
        (scanAnswers dnsPacket (readUInt16BE dnsPacket 6)
          { offset := skipQuestions dnsPacket (readUInt16BE dnsPacket 4) 12 }).keptAnswers =
            (found.answers.filter fun r => r.type ≠ 28).map fun r =>
              slice dnsPacket r.recordStart r.recordEnd) := by
  unfold boundaries?
  by_cases hshort : dnsPacket.length < 12
  · rw [if_pos hshort]
    exact ⟨_, rfl, fun h => absurd hshort (Nat.not_lt.mpr h)⟩
  rw [if_neg hshort, readUInt16BE?_eq (by omega), readUInt16BE?_eq (by omega)]
  dsimp only [bind, Option.bind]
  by_cases hnone : readUInt16BE dnsPacket 6 = 0
  · rw [if_pos hnone]
    exact ⟨_, rfl, fun _ h => absurd hnone h⟩
  rw [if_neg hnone]
  obtain ⟨ends, hends, hlast⟩ := questionEnds?_eq dnsPacket (readUInt16BE dnsPacket 4) 12
  obtain ⟨found, hfound, hkept⟩ := answers?_eq dnsPacket (readUInt16BE dnsPacket 6)
    { offset := skipQuestions dnsPacket (readUInt16BE dnsPacket 4) 12 }
  rw [hends]
  dsimp only
  rw [hlast, hfound]
  exact ⟨_, rfl, fun _ _ => ⟨hlast, hkept⟩⟩

/-- Behind a pointer the loop takes the high byte of the type for the end of the
name, and only if it is zero does it go wrong. -/
theorem skipQuestion_eq_iff {q : DnsMessage.Question} (h : QuestionAt dnsPacket off q stop reach) :
    skipQuestion dnsPacket off = stop ↔ reach = 0 ∨ 256 ≤ q.type := by
  refine ⟨fun heq => ?_, skipQuestion_eq h⟩
  by_contra hnot
  obtain ⟨hpointer, hsmall⟩ := not_or.mp hnot
  obtain ⟨⟨next, hname, rfl, htype, -⟩, hfits⟩ := h
  obtain ⟨hnext, -⟩ | ⟨-, -, hreach⟩ := skipQuestionName_spec hname
  · have hword : q.type = byteAt dnsPacket next * 256 + byteAt dnsPacket (next + 1) := htype
    have hzero : byteAt dnsPacket next = 0 := by omega
    unfold skipQuestion at heq
    rw [hnext] at heq
    dsimp only at heq
    rw [if_pos ⟨by omega, hzero⟩] at heq
    omega
  · exact hpointer hreach

/-- The question loop finds the ends of all questions exactly if each of them is
plain. -/
theorem questionEnds?_iff {questions : List (DnsMessage.Located DnsMessage.Question)}
    (h : SectionAt (QuestionAt dnsPacket) off questions stop) :
    questionEnds? dnsPacket questions.length off = some (questions.map DnsMessage.Located.stop) ↔
      ∀ q ∈ questions, q.reach = 0 ∨ 256 ≤ q.value.type := by
  induction h with
  | nil => exact iff_of_true rfl fun q hq => absurd hq List.not_mem_nil
  | @cons off stop reach next value rest head tail ih =>
      rw [List.forall_mem_cons, ← ih, ← skipQuestion_eq_iff head, List.length_cons, questionEnds?,
        skipQuestion?_eq, List.map_cons]
      dsimp only [bind, Option.bind]
      obtain ⟨ends, hends, -⟩ := questionEnds?_eq dnsPacket rest.length (skipQuestion dnsPacket off)
      constructor
      · intro heq
        rw [hends] at heq
        obtain ⟨hstop, hrest⟩ := List.cons.inj (Option.some.inj heq)
        rw [hstop] at hends
        exact ⟨hstop, by rw [hends, hrest]⟩
      · rintro ⟨hstop, hrest⟩
        rw [hstop, hrest]

/-- From the right start, the answer loop finds every record where the grammar
has it. -/
theorem answers?_section {answers : List (DnsMessage.Located DnsMessage.Record)}
    (h : SectionAt (RecordAt dnsPacket) off answers stop) :
    answers? dnsPacket answers.length off =
      some (answers.map fun r => ⟨r.start, r.stop, r.value.type⟩) := by
  induction h with
  | nil => rfl
  | cons head tail ih =>
      have hlt := head.lt
      have hfits := head.fits
      obtain ⟨⟨next, owned, held, hname, hstop, -, htype, -⟩, -⟩ := head
      have hend : next + 10 + readUInt16BE dnsPacket (next + 8) = _ := hstop.symm
      have hkind : readUInt16BE dnsPacket next = _ := htype.symm
      rw [List.length_cons, answers?, if_pos (by omega), skipName?_eq, skipName_eq hname]
      dsimp only [bind, Option.bind]
      rw [if_neg (by omega), readUInt16BE?_eq (by omega), readUInt16BE?_eq (by omega)]
      dsimp only
      rw [hend, if_neg (by omega), ih, hkind]
      rfl

/-- The two loops delimit a message exactly if it has no answers or only plain
questions. -/
theorem delimits_iff (h : Parses dnsPacket p) :
    Delimits dnsPacket p ↔ p.answers = [] ∨ ∀ q ∈ p.questions, q.reach = 0 ∨ 256 ≤ q.value.type := by
  have hqdcount : readUInt16BE dnsPacket 4 = p.questions.length := h.questions.symm
  have hancount : readUInt16BE dnsPacket 6 = p.answers.length := h.answers.symm
  have hheader := h.header
  obtain ⟨a, b, c, hquestions, hanswers, -⟩ := h.sections
  by_cases hnone : p.answers = []
  · refine iff_of_true ?_ (.inl hnone)
    obtain ⟨found, hfound, -⟩ := boundaries?_eq dnsPacket
    exact ⟨found, hfound, fun hsome => absurd hnone hsome⟩
  have hpos : p.answers.length ≠ 0 := fun hzero => hnone (List.length_eq_zero_iff.mp hzero)
  obtain ⟨ends, hends, hlast⟩ := questionEnds?_eq dnsPacket p.questions.length 12
  have hfound : boundaries? dnsPacket = (answers? dnsPacket p.answers.length (ends.getLastD 12)).map
      fun answers => ⟨ends, answers⟩ := by
    unfold boundaries?
    rw [if_neg (by omega), readUInt16BE?_eq (by omega), readUInt16BE?_eq (by omega), hqdcount,
      hancount]
    dsimp only [bind, Option.bind]
    rw [if_neg hpos, hends]
    dsimp only
    cases answers? dnsPacket p.answers.length (ends.getLastD 12) <;> rfl
  constructor
  · rintro ⟨found, hsome, hright⟩
    refine .inr ((questionEnds?_iff hquestions).mp ?_)
    rw [hfound] at hsome
    obtain ⟨answers, -, rfl⟩ := Option.map_eq_some_iff.mp hsome
    rw [hends]
    exact congrArg some (hright hnone).1
  · intro hplain
    have hplain := hplain.resolve_left hnone
    have hstops := (questionEnds?_iff hquestions).mpr hplain
    rw [hends] at hstops
    rw [hlast, skipQuestions_eq hquestions hplain, answers?_section hanswers] at hfound
    exact ⟨_, hfound, fun _ => ⟨Option.some.inj hstops, rfl⟩⟩

/-- The question has a name of its own, so the boundaries are found. -/
theorem delimits_iff_plain : Delimits (exampleResponse 12) (exampleParsed [[97]] 15) := by
  have hlabel : (exampleResponse 12)[12]? = some 1 := rfl
  have hname : NameAt (exampleResponse 12) 12 [[97]] 15 0 :=
    .label hlabel (by decide) (by decide) (.root rfl)
  exact (delimits_iff (parses_exampleResponse (by decide) hname)).mpr (.inr (by decide))

/-- A question for `a`, another whose name is a pointer to the first, and an
answer. Such a response is well formed. -/
def twoQuestions : Bytes :=
  [0x12, 0x34, 0x81, 0x80, 0, 2, 0, 1, 0, 0, 0, 0] ++ [1, 97, 0, 0, 255, 0, 1] ++
    [0xc0, 12, 0, 1, 0, 1] ++ [1, 97, 0, 0, 1, 0, 1, 0, 0, 0, 60, 0, 4, 192, 0, 2, 1]

/-- Its parts, and where they stand. -/
def twoQuestionsParsed : Parsed where
  id := 0x1234
  flags := 0x8180
  questions := [⟨⟨[[97]], 255, 1⟩, 12, 19, 0⟩, ⟨⟨[[97]], 1, 1⟩, 19, 25, 15⟩]
  answers := [⟨⟨[[97]], 1, 1, 60, [.bytes [192, 0, 2, 1]]⟩, 25, 42, 0⟩]
  authority := []
  additional := []

/-- The reading of the example, question by question. -/
theorem parses_twoQuestions : Parses twoQuestions twoQuestionsParsed := by
  have hfirst : twoQuestions[12]? = some 1 := rfl
  have hpointed : NameAt twoQuestions 12 [[97]] 15 0 :=
    .label hfirst (by decide) (by decide) (.root rfl)
  have hquestion : QuestionAt twoQuestions 12 ⟨[[97]], 255, 1⟩ 19 0 :=
    ⟨⟨15, hpointed, rfl, by decide, by decide⟩, by decide⟩
  have hhigh : twoQuestions[19]? = some 0xc0 := rfl
  have hlow : twoQuestions[20]? = some 12 := rfl
  have hsecond : QuestionAt twoQuestions 19 ⟨[[97]], 1, 1⟩ 25 15 :=
    ⟨⟨21, .pointer hhigh (by decide) hlow (by decide) hpointed, rfl, by decide, by decide⟩,
      by decide⟩
  have howner : twoQuestions[25]? = some 1 := rfl
  have hanswer : RecordAt twoQuestions 25 ⟨[[97]], 1, 1, 60, [.bytes [192, 0, 2, 1]]⟩ 42 0 :=
    ⟨⟨28, 0, 0, .label howner (by decide) (by decide) (.root rfl), by decide, rfl, by decide,
      by decide, by decide, .rest (by decide)⟩, by decide⟩
  exact ⟨by decide, by decide, by decide, by decide, by decide, by decide, by decide, 25, 42, 42,
    .cons hquestion (.cons hsecond .nil), .cons hanswer .nil, .nil, .nil⟩

/-- The second question ends at 25. The loop takes the zero of its type for the
end of its name, is at 26, and finds no answer. -/
theorem pointed_question_overrun :
    Parses twoQuestions twoQuestionsParsed ∧
      boundaries? twoQuestions = some { questionEnds := [19, 26], answers := [] } ∧
      ¬Delimits twoQuestions twoQuestionsParsed := by
  have hfound : boundaries? twoQuestions = some ⟨[19, 26], []⟩ := by decide +kernel
  refine ⟨parses_twoQuestions, hfound, ?_⟩
  rintro ⟨found, hsome, hright⟩
  rw [hfound] at hsome
  obtain rfl := Option.some.inj hsome
  exact absurd (hright (List.cons_ne_nil _ _)).1 (by decide)

end RootlessRelay

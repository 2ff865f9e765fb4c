import Asm88000.Proofs.Agreement
import Asm88000.Proofs.Layout

namespace Asm88000.Object

def Call.fills : Call → Bool
  | .instruction _ => true
  | .word _ _      => true
  | .align _ _     => true
  | _              => false

def refusal? (o : Object) (c : Call) : Option Failure :=
  match o.call c with
  | .ok _    => none
  | .error f => some f

-- The calls that fill a section while it is the current one, each with what it is refused with.
def history (o : Object) (sect : SectionName) : List Call → List (Call × Option Failure)
  | []      => []
  | c :: cs =>
    if c.fills && o.current = sect then (c, o.refusal? c) :: (o.after c).history sect cs
    else (o.after c).history sect cs

def callsIn (o : Object) (sect : SectionName) (cs : List Call) : List Call :=
  (o.history sect cs).map Prod.fst

structure SameIn (sect : SectionName) (o p : Object) : Prop where
  counter : o.getSection sect = p.getSection sect
  records : o.recordsIn sect = p.recordsIn sect

structure Together (sect : SectionName) (o p : Object) : Prop extends SameIn sect o p where
  left  : o.current = sect
  right : p.current = sect

variable {o p : Object} {sect : SectionName} {c : Call}

@[simp]
theorem current_setAddress (o : Object) (a : Int) : (o.setAddress a).current = o.current := by
  unfold setAddress
  split <;> rfl

theorem recordsIn_append (o : Object) (r : Record) (sect : SectionName) :
    (o.append r).recordsIn sect = o.recordsIn sect ++ [r].filter fun r => r.sect = sect := by
  rw [recordsIn, records_append, List.filter_append, recordsIn]

theorem sameIn_setAddress (h : o.current ≠ sect) (a : Int) : SameIn sect (o.setAddress a) o where
  counter := by rw [getSection_setAddress, if_neg h.symm]
  records := by rw [recordsIn, records_setAddress, recordsIn]

theorem Step.sameIn {o' : Object} (hstep : Step o o') (h : o.current ≠ sect) :
    SameIn sect o' o := by
  rcases hstep.cases with ⟨r, hr, rfl⟩ | ⟨a, _, rfl⟩ | ⟨hrecords, hsections⟩
  · constructor
    case counter =>
      rw [getSection_append]
      exact (sameIn_setAddress h _).counter
    case records =>
      rw [recordsIn_append, List.filter_singleton, hr.sect_eq]
      simp [h]
  · exact sameIn_setAddress h a
  · exact ⟨hsections sect, by rw [recordsIn, hrecords, recordsIn]⟩

theorem sameIn_of_call {o' : Object} (h : o.call c = .ok o') (hc : c.fills = false)
    (sect : SectionName) : SameIn sect o' o := by
  cases c
  case instruction => cases hc
  case word        => cases hc
  case align       => cases hc
  case require88110 =>
    cases h
    exact ⟨by cases sect <;> rfl, rfl⟩
  case switch name =>
    have h := mapError_eq_ok.mp h
    unfold switchTo at h
    split at h
    case h_2 => cases h
    case h_1 =>
      cases h
      exact ⟨by cases sect <;> rfl, rfl⟩
  case label name loc =>
    obtain ⟨_, rfl⟩ := label_eq_ok (mapError_eq_ok.mp h)
    exact ⟨by cases sect <;> rfl, rfl⟩
  case global name =>
    cases h
    unfold Object.global
    split
    · exact ⟨rfl, rfl⟩
    · exact ⟨by cases sect <;> rfl, rfl⟩

theorem sameIn_after (h : (c.fills && o.current = sect) = false) : SameIn sect (o.after c) o := by
  unfold after
  split
  case h_2 => exact ⟨rfl, rfl⟩
  case h_1 hcall =>
    by_cases hc : c.fills
    case pos =>
      refine (step_of_call hcall).sameIn ?_
      simpa [hc] using h
    case neg => exact sameIn_of_call hcall (by simpa using hc) sect

namespace Together

theorem current (h : Together sect o p) : o.current = p.current :=
  h.left.trans h.right.symm

theorem address (h : Together sect o p) : o.address = p.address := by
  rw [Object.address, Object.address, h.left, h.right, h.counter]

theorem setAddress (h : Together sect o p) (a : Int) :
    Together sect (o.setAddress a) (p.setAddress a) where
  counter := by rw [getSection_setAddress, getSection_setAddress, h.current, h.counter]
  records := by rw [recordsIn, recordsIn, records_setAddress, records_setAddress, ← recordsIn,
    ← recordsIn, h.records]
  left    := by rw [current_setAddress, h.left]
  right   := by rw [current_setAddress, h.right]

theorem append (h : Together sect o p) (r : Record) : Together sect (o.append r) (p.append r) := by
  have hmoved := h.setAddress (o.address + wordSize)
  constructor
  case toSameIn =>
    constructor
    case counter => rw [getSection_append, getSection_append, ← h.address, hmoved.counter]
    case records => rw [recordsIn_append, recordsIn_append, h.records]
  case left  => rw [Object.append, current_setAddress, h.left]
  case right => rw [Object.append, current_setAddress, h.right]

theorem instructionRecord (h : Together sect o p) (inst : Inst) :
    o.instructionRecord inst = p.instructionRecord inst := by
  rw [Object.instructionRecord, Object.instructionRecord, h.address, h.current]

theorem wordRecord (h : Together sect o p) (e : Expr) (loc : Option Loc) :
    o.wordRecord e loc = p.wordRecord e loc := by
  rw [Object.wordRecord, Object.wordRecord, h.address, h.current]

theorem call (h : Together sect o p) (hc : c.fills) :
    Outcomes Eq (Together sect) (o.call c) (p.call c) := by
  cases c
  case switch       => cases hc
  case label        => cases hc
  case global       => cases hc
  case require88110 => cases hc
  case instruction inst =>
    change Outcomes _ _ (o.emitInstruction inst) (p.emitInstruction inst)
    rw [emitInstruction, emitInstruction, h.instructionRecord]
    cases p.instructionRecord inst
    case error => exact .error rfl
    case ok r  => exact .ok (h.append r)
  case word e loc =>
    change Outcomes _ _ ((o.emitWord e loc).mapError _) ((p.emitWord e loc).mapError _)
    rw [emitWord, emitWord, h.wordRecord]
    cases p.wordRecord e loc
    case error => exact .error rfl
    case ok r  => exact .ok (h.append r)
  case align alignment loc =>
    change Outcomes _ _ ((o.align alignment loc).mapError _) ((p.align alignment loc).mapError _)
    rw [Object.align, Object.align, h.address]
    split
    case isTrue  => exact .ok (h.setAddress _)
    case isFalse => exact .error rfl

theorem after (h : Together sect o p) (hc : c.fills) :
    o.refusal? c = p.refusal? c ∧ Together sect (o.after c) (p.after c) := by
  have houtcomes := h.call hc
  unfold refusal? Object.after
  generalize o.call c = x at houtcomes
  generalize p.call c = y at houtcomes
  cases houtcomes
  case ok h'    => exact ⟨rfl, h'⟩
  case error he => exact ⟨congrArg some he, h⟩

end Together

theorem history_cons_idle (h : (c.fills && o.current = sect) = false) (cs : List Call) :
    o.history sect (c :: cs) = (o.after c).history sect cs := by
  rw [history, h, if_neg Bool.false_ne_true]

theorem history_cons_fills (hc : c.fills) (ho : o.current = sect) (cs : List Call) :
    o.history sect (c :: cs) = (c, o.refusal? c) :: (o.after c).history sect cs := by
  simp [history, hc, ho]

theorem history_alone (h : SameIn sect o p) (hp : p.current = sect) (cs : List Call) :
    SameIn sect (o.afterAll cs) (p.afterAll (o.callsIn sect cs)) ∧
      o.history sect cs = p.history sect (o.callsIn sect cs) := by
  induction cs generalizing o p
  case nil => exact ⟨h, rfl⟩
  case cons c cs ih =>
    cases hc : c.fills && o.current = sect
    case false =>
      have hafter := sameIn_after hc
      rw [callsIn, history_cons_idle hc]
      exact ih ⟨hafter.counter.trans h.counter, hafter.records.trans h.records⟩ hp
    case true =>
      rw [Bool.and_eq_true, decide_eq_true_eq] at hc
      obtain ⟨hc, ho⟩ := hc
      obtain ⟨hrefusal, htogether⟩ := Together.after ⟨h, ho, hp⟩ hc
      obtain ⟨hsame, hhistory⟩ := ih htogether.toSameIn htogether.right
      rw [callsIn, history_cons_fills hc ho, List.map_cons, history_cons_fills hc hp, hrefusal]
      exact ⟨hsame, congrArg _ hhistory⟩

-- However the sections are interleaved, the same calls in a section lead to the same section and
-- are refused for the same reasons.
theorem sections_do_not_interfere (codeStart dataStart : Int) (sect : SectionName)
    (cs cs' : List Call)
    (h : (new codeStart dataStart).callsIn sect cs = (new codeStart dataStart).callsIn sect cs') :
    ((new codeStart dataStart).afterAll cs).getSection sect =
      ((new codeStart dataStart).afterAll cs').getSection sect ∧
    ((new codeStart dataStart).afterAll cs).recordsIn sect =
      ((new codeStart dataStart).afterAll cs').recordsIn sect ∧
    (new codeStart dataStart).history sect cs = (new codeStart dataStart).history sect cs' := by
  -- Both runs are compared with the one that is in the section from the beginning.
  have hswitch : SameIn sect (new codeStart dataStart) ((new codeStart dataStart).switch sect) :=
    ⟨by cases sect <;> rfl, rfl⟩
  obtain ⟨hsame, hhistory⟩ := history_alone hswitch rfl cs
  obtain ⟨hsame', hhistory'⟩ := history_alone hswitch rfl cs'
  rw [h] at hsame hhistory
  exact ⟨hsame.counter.trans hsame'.counter.symm, hsame.records.trans hsame'.records.symm,
    hhistory.trans hhistory'.symm⟩

-- The first instruction stands in the middle of a word, with the other section filled before or
-- after it.
theorem sections_do_not_interfere_refused :
    ∃ cs cs' : List Call,
      cs = [.instruction ⟨some "RTE", [], none⟩, .switch ".data", .word (.const 1) none,
        .switch ".text", .align 4 none, .instruction ⟨some "RTE", [], none⟩, .switch ".data",
        .align 3 none] ∧
      cs' = [.switch ".data", .word (.const 1) none, .align 3 none, .switch ".text",
      .label "a" none,
        .instruction ⟨some "RTE", [], none⟩, .align 4 none, .switch ".bss",
        .instruction ⟨some "RTE", [], none⟩] ∧
      (new 2 0x1000).callsIn .text cs = (new 2 0x1000).callsIn .text cs' ∧
      ((new 2 0x1000).afterAll cs).text = ((new 2 0x1000).afterAll cs').text ∧
      ((new 2 0x1000).afterAll cs).recordsIn .text = ((new 2 0x1000).afterAll cs').recordsIn .text ∧
      (new 2 0x1000).history .text cs = (new 2 0x1000).history .text cs' ∧
      ((new 2 0x1000).history .text cs).map Prod.snd =
        [some (.error ⟨.unalignedInstruction 2, none⟩), none, none] := by
  refine ⟨_, _, rfl, rfl, rfl, ?_⟩
  obtain ⟨hcounter, hrecords, hhistory⟩ := sections_do_not_interfere 2 0x1000 .text
    [.instruction ⟨some "RTE", [], none⟩, .switch ".data", .word (.const 1) none,
      .switch ".text", .align 4 none, .instruction ⟨some "RTE", [], none⟩, .switch ".data",
      .align 3 none]
    [.switch ".data", .word (.const 1) none, .align 3 none, .switch ".text", .label "a" none,
      .instruction ⟨some "RTE", [], none⟩, .align 4 none, .switch ".bss",
      .instruction ⟨some "RTE", [], none⟩] rfl
  exact ⟨hcounter, hrecords, hhistory, by decide +kernel⟩

end Asm88000.Object

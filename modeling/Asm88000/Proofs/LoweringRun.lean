import Asm88000.Proofs.Fixups
import Asm88000.Proofs.LoweredText

namespace Asm88000

def Referent.IsTyped : Referent → Prop
  | global name   => ∃ s, name = .text s
  | external name => ∃ s, name = .text s
  | absent        => False
  | _             => True

namespace MachineOperand

def IsTyped : MachineOperand → Prop
  | symbol ref _ _ => ref.IsTyped
  | _              => True

-- What cannot be lowered: a register that is none or has been divided, a symbol with a flag that
-- means nothing, and any kind but registers, immediates and the six kinds of symbols.
inductive Refused : MachineOperand → Prop
  | notPhysical {reg sub implicit} :
    (∀ r : Register, reg ≠ .int r.id) → Refused (.register reg sub implicit)
  | subRegister {reg sub implicit} : sub ≠ 0 → Refused (.register reg sub implicit)
  | unknownFlag {ref offset flags} :
    flags ∉ [.int 0, .int 1, .int 2] → Refused (.symbol ref offset flags)
  | machineSymbol {offset flags} : Refused (.symbol .machineSymbol offset flags)
  | registerMask : Refused .registerMask
  | other {kind} : Refused (.other kind)

end MachineOperand

def MachineInstr.IsTyped (mi : MachineInstr) : Prop :=
  ∀ op ∈ mi.operands, op.IsTyped

theorem Register.ofAtom?_eq_some {a : Atom} {r : Register} :
    ofAtom? a = some r ↔ a = .int r.id := by
  cases a
  case int i => simp [ofAtom?, ofId?_eq_some]
  all_goals simp [ofAtom?]

namespace Lowering

open MachineOperand

variable {ref : Referent} {op : MachineOperand} {a : Arg}

-- The argument that an operand is lowered to. A pair is not among the registers that are written.
inductive Becomes : MachineOperand → Arg → Prop
  | register {r : Register} {implicit : Bool} :
    Becomes (.register (.int r.id) 0 implicit) (.reg (written r).id)
  | immediate {v : Atom} : Becomes (.immediate v) (.ofImmediate v)
  | symbol {ref offset flags sel name n n'} :
    selector flags = .ok sel → symbolName ref n = .ok (.text name) n' →
    Becomes (.symbol ref offset flags) (.expr (selectHalf sel (symbolExpr ref offset (.text name))))

theorem regClass_written (r : Register) : (written r).regClass ≠ .gpr64 := by
  cases r <;> simp [written, Register.high?, Register.regClass]

theorem Becomes.noPair {r : Register} (h : Becomes op (.reg r.id)) : r.regClass ≠ .gpr64 := by
  generalize ha : Arg.reg r.id = a at h
  cases h
  case register q _ =>
    obtain rfl : r = written q := by
      have hid := Register.ofId?_id r
      rw [Arg.reg.inj ha, Register.ofId?_id] at hid
      exact (Option.some.inj hid).symm
    exact regClass_written q
  case immediate v => cases v <;> cases ha
  case symbol      => cases ha

theorem Becomes.isNamed (h : Becomes op a) : a.isNamed := by
  cases h
  case register    => rfl
  case immediate v => cases v <;> rfl
  case symbol ref offset _ sel name _ _ _ _ =>
    have hsymbol : (symbolExpr ref offset (.text name)).isNamed := by
      unfold symbolExpr
      split <;> rfl
    cases sel
    case none     => exact hsymbol
    case some sel => exact hsymbol

theorem symbolName_typed (h : ref.IsTyped) (n : SymbolNamer) :
    Ensures (symbolName ref) n (fun name _ => ref ≠ .machineSymbol ∧ ∃ s, name = .text s)
      fun _ _ => ref = .machineSymbol := by
  cases ref
  case machineSymbol => rfl
  case absent        => exact h.elim
  case global        => exact ⟨by simp, h⟩
  case external      => exact ⟨by simp, h⟩
  all_goals exact ⟨by simp, _, rfl⟩

theorem lowerOperand_typed (h : op.IsTyped) (n : SymbolNamer) :
    Ensures (lowerOperand op) n (fun a _ => ¬op.Refused ∧ Becomes op a) fun _ _ => op.Refused := by
  cases op
  case immediate =>
    refine ⟨fun hrefused => ?_, .immediate⟩
    cases hrefused
  case registerMask => exact .registerMask
  case other        => exact .other
  case register reg sub implicit =>
    simp only [Ensures, lowerOperand, lowerRegister]
    cases hreg : Register.ofAtom? reg
    case none =>
      refine .notPhysical fun r hr => ?_
      rw [Register.ofAtom?_eq_some.mpr hr] at hreg
      cases hreg
    case some r =>
      obtain rfl := Register.ofAtom?_eq_some.mp hreg
      by_cases hsub : sub = 0
      case neg =>
        simp only [hsub, ne_eq, not_false_eq_true, ↓reduceIte]
        exact .subRegister hsub
      case pos =>
        subst hsub
        simp only [ne_eq, not_true_eq_false, ↓reduceIte]
        refine ⟨?_, .register⟩
        rintro (hphysical | hsub)
        · exact hphysical r rfl
        · exact hsub rfl
  case symbol ref offset flags =>
    rw [lowerOperand, lowerSymbol]
    cases hsel : selector flags
    case error b =>
      refine ensures_throw.mpr (.unknownFlag fun hflags => ?_)
      obtain ⟨sel, hok⟩ := selector_known.mpr hflags
      cases hsel.symm.trans hok
    case ok sel =>
      cases hname : symbolName ref n
      case error b n' =>
        obtain rfl := (symbolName_typed h n).error hname
        exact .of_error (by simp only [bind, EStateM.bind, hname]; rfl) .machineSymbol
      case ok name n' =>
        obtain ⟨hkind, s, rfl⟩ := (symbolName_typed h n).ok hname
        refine .of_ok (by simp only [bind, EStateM.bind, hname]; rfl) ⟨?_, .symbol hsel hname⟩
        rintro (_ | _ | hflags | _)
        · exact hflags (selector_known.mp ⟨sel, hsel⟩)
        · exact hkind rfl

theorem mapM_lowerOperand_typed {ops : List MachineOperand} (h : ∀ op ∈ ops, op.IsTyped)
    (n : SymbolNamer) :
    Ensures (ops.mapM lowerOperand) n
      (fun as _ => (∀ op ∈ ops, ¬op.Refused) ∧ List.Forall₂ Becomes ops as)
      fun _ _ => ∃ op ∈ ops, op.Refused := by
  induction ops generalizing n
  case nil => exact ⟨by simp, .nil⟩
  case cons op ops ih =>
    obtain ⟨hop, hops⟩ := List.forall_mem_cons.mp h
    simp only [List.exists_mem_cons_iff, List.forall_mem_cons]
    rw [List.mapM_cons]
    refine (lowerOperand_typed hop n).bind (fun a n' ha => ?_) fun _ _ => .inl
    refine (ih hops n').bind (fun as _ has => ?_) fun _ _ => .inr
    exact ⟨⟨ha.left, has.left⟩, .cons ha.right has.right⟩

structure Yields (mi : MachineInstr) (inst : Inst) : Prop where
  opcode : inst.opcode = mi.opcode
  args   : List.Forall₂ Becomes (ownOperands mi) inst.args

variable {mi : MachineInstr} {inst : Inst}

theorem Yields.noPair (h : Yields mi inst) {r : Register} (hr : .reg r.id ∈ inst.args) :
    r.regClass ≠ .gpr64 := by
  obtain ⟨op, _, hop⟩ := forall₂_exists_left h.args hr
  exact hop.noPair

theorem Yields.isNamed (h : Yields mi inst) : ∀ a ∈ inst.args, a.isNamed := by
  intro a ha
  obtain ⟨op, _, hop⟩ := forall₂_exists_left h.args ha
  exact hop.isNamed

theorem lower_typed (h : mi.IsTyped) (st : State) :
    Ensures (lower mi) st
      (fun inst st' => st'.session.object = st.session.object ∧
        (∀ op ∈ ownOperands mi, ¬op.Refused) ∧ Yields mi inst)
      fun _ st' => st'.session.object = st.session.object ∧ ∃ op ∈ ownOperands mi, op.Refused := by
  have hown : ∀ op ∈ ownOperands mi, op.IsTyped := fun op hop => h op (List.mem_of_mem_filter hop)
  have hinst : Ensures (lowerInstr mi) st.namer
      (fun inst _ => (∀ op ∈ ownOperands mi, ¬op.Refused) ∧ Yields mi inst)
      fun _ _ => ∃ op ∈ ownOperands mi, op.Refused :=
    (mapM_lowerOperand_typed hown st.namer).bind (fun _ _ hargs => ⟨hargs.left, rfl, hargs.right⟩)
      fun _ _ => id
  refine (naming_ensures hinst).bind (fun inst st' hinst => ?_) fun _ st' hrefused => ?_
  -- The log is all that is changed behind the lowering.
  · have hobject : st'.session.object = st.session.object := congrArg Session.object hinst.left
    exact ⟨hobject, hinst.right⟩
  · exact ⟨congrArg Session.object hrefused.left, hrefused.right⟩

theorem exists_lower_error_iff (h : mi.IsTyped) (st : State) :
    (∃ f st', lower mi st = .error f st') ↔ ∃ op ∈ ownOperands mi, op.Refused := by
  cases hlower : lower mi st
  case ok inst st' =>
    obtain ⟨_, haccepted, _⟩ := (lower_typed h st).ok hlower
    refine iff_of_false (by simp) ?_
    rintro ⟨op, hop, hrefused⟩
    exact haccepted op hop hrefused
  case error f st' => exact iff_of_true ⟨f, st', rfl⟩ ((lower_typed h st).error hlower).right

theorem isNamed_of_instructionRecord {o : Object} {r : Record}
    (h : o.instructionRecord inst = .ok r) (hargs : ∀ a ∈ inst.args, a.isNamed) : r.isNamed := by
  obtain ⟨_, word, fixups, hencode, rfl⟩ := Object.instructionRecord_eq_ok h
  obtain ⟨op, _, hencode⟩ := bind_eq_ok.mp hencode
  obtain ⟨hreads, _, rfl⟩ := Opcode.encode_eq_ok hencode
  refine List.all_eq_true.mpr fun fixup hfixup => ?_
  obtain ⟨f, hf, hpart⟩ := List.mem_filterMap.mp hfixup
  exact hargs _ (Field.read_fixup (n := (f.part inst.args).1) (by rw [hreads f hf, ← hpart]))

theorem emit_typed (h : Yields mi inst) (st : State) :
    Ensures (emit inst) st
      (fun _ st' => ∃ r, st.session.object.instructionRecord inst = .ok r ∧
        st'.session.object = st.session.object.append r)
      fun _ st' => st'.session.object = st.session.object := by
  cases hr : st.session.object.instructionRecord inst
  case error f => exact .of_error (emit_of_error hr) rfl
  case ok r    =>
    refine .of_ok (emit_of_ok hr (isNamed_of_instructionRecord hr h.isNamed)) ?_
    exact ⟨r, rfl, Session.object_append _ _⟩

variable {mis : List MachineInstr} {insts : List Inst} {rs : List Record} {st st₁ st₂ st₃ : State}

-- An instruction fails when it is lowered, or when what it is lowered to is emitted.
inductive Fails (mi : MachineInstr) (st : State) (f : Failure) : Prop
  | lowering {st'} : lower mi st = .error f st' → Fails mi st f
  | emission {inst st' st''} :
    lower mi st = .ok inst st' → emit inst st' = .error f st'' → Fails mi st f

theorem fails_or_emits (mi : MachineInstr) (st : State) :
    (∃ f, Fails mi st f) ∨
      ∃ inst st₁ st₂, lower mi st = .ok inst st₁ ∧ emit inst st₁ = .ok () st₂ := by
  cases hlower : lower mi st
  case error f _ => exact .inl ⟨f, .lowering hlower⟩
  case ok inst st₁ =>
    cases hemit : emit inst st₁
    case error f _ => exact .inl ⟨f, .emission hlower hemit⟩
    case ok _ st₂  => exact .inr ⟨inst, st₁, st₂, rfl, hemit⟩

theorem Fails.lowerAll_eq {f : Failure} (hfails : Fails mi st f) (h : mi.IsTyped)
    (mis : List MachineInstr) :
    ∃ st', lowerAll (mi :: mis) st = .error f st' ∧ st'.session.object = st.session.object := by
  cases hfails
  case lowering st₁ hlower =>
    refine ⟨st₁, ?_, ((lower_typed h st).error hlower).left⟩
    simp only [lowerAll, bind, EStateM.bind, hlower]
  case emission inst st₁ st₂ hlower hemit =>
    obtain ⟨hsame, _, hyields⟩ := (lower_typed h st).ok hlower
    refine ⟨st₂, ?_, ((emit_typed hyields st₁).error hemit).trans hsame⟩
    simp only [lowerAll, bind, EStateM.bind, hlower, hemit]

structure IsRecordOf (mi : MachineInstr) (inst : Inst) (r : Record) : Prop where
  type    : r.type = .instruction
  emitted : r.inst = some inst
  yields  : Yields mi inst
  noPair  : ∀ q : Register, .reg q.id ∈ inst.args → q.regClass ≠ .gpr64

structure Done (st : State) (mis : List MachineInstr) (insts : List Inst) (rs : List Record)
    (st' : State) : Prop where
  lowered : lowerAll mis st = .ok insts st'
  records : List.Forall₂ (fun mi r => ∃ inst, IsRecordOf mi inst r) mis rs
  insts   : rs.map Record.inst = insts.map some
  object  : st'.session.object = rs.foldl Object.append st.session.object

theorem done_nil (st : State) : Done st [] [] [] st :=
  ⟨rfl, .nil, rfl, rfl⟩

theorem Done.cons (hlower : lower mi st = .ok inst st₁) (hemit : emit inst st₁ = .ok () st₂)
    (h : mi.IsTyped) (hdone : Done st₂ mis insts rs st₃) :
    ∃ r, Done st (mi :: mis) (inst :: insts) (r :: rs) st₃ := by
  obtain ⟨hsame, _, hyields⟩ := (lower_typed h st).ok hlower
  obtain ⟨r, hr, hobject⟩ := (emit_typed hyields st₁).ok hemit
  obtain ⟨_, word, fixups, _, hrecord⟩ := Object.instructionRecord_eq_ok hr
  have hinst : r.inst = some inst := by rw [hrecord]
  have hmade : ∃ inst, IsRecordOf mi inst r :=
    ⟨inst, by rw [hrecord], hinst, hyields, fun _ => hyields.noPair⟩
  refine ⟨r, ?_, .cons hmade hdone.records, ?_, ?_⟩
  · rw [lowerAll, bind_apply_of_ok hlower, bind_apply_of_ok hemit, bind_apply_of_ok hdone.lowered]
    rfl
  · rw [List.map_cons, List.map_cons, hinst, hdone.insts]
  · rw [List.foldl_cons, hdone.object, hobject, hsame]

theorem exists_done (h : ∀ mi ∈ mis, mi.IsTyped) (st : State) :
    ∃ front rest insts rs st', mis = front ++ rest ∧ Done st front insts rs st' ∧
      (rest = [] ∨ ∃ mi later f st'', rest = mi :: later ∧ Fails mi st' f ∧
        lowerAll mis st = .error f st'' ∧ st''.session.object = st'.session.object) := by
  induction mis generalizing st
  case nil => exact ⟨[], [], [], [], st, rfl, done_nil st, .inl rfl⟩
  case cons mi mis ih =>
    obtain ⟨hmi, hmis⟩ := List.forall_mem_cons.mp h
    rcases fails_or_emits mi st with ⟨f, hfails⟩ | ⟨inst, st₁, st₂, hlower, hemit⟩
    · obtain ⟨st', herror, hobject⟩ := hfails.lowerAll_eq hmi mis
      exact ⟨[], mi :: mis, [], [], st, rfl, done_nil st,
        .inr ⟨mi, mis, f, st', rfl, hfails, herror, hobject⟩⟩
    · obtain ⟨front, rest, insts, rs, st₃, rfl, hdone, hrest⟩ := ih hmis st₂
      obtain ⟨r, hdone⟩ := hdone.cons hlower hemit hmi
      refine ⟨mi :: front, rest, _, _, st₃, rfl, hdone, hrest.imp_right ?_⟩
      rintro ⟨mi', later, f, st₄, hrest, hfails, herror, hobject⟩
      refine ⟨mi', later, f, st₄, hrest, hfails, ?_, hobject⟩
      simp only [lowerAll, bind, EStateM.bind, hlower, hemit, herror]

-- Instructions are lowered and emitted in turn up to the first that fails, and then the object is
-- as those in front of it have left it. Lowering fails at operands that are refused, and at no
-- others.
theorem lowerAll_prefix_exact (h : ∀ mi ∈ mis, mi.IsTyped) (st : State) :
    (∀ mi ∈ mis, ∀ st', (∃ f st'', lower mi st' = .error f st'') ↔
      ∃ op ∈ mi.operands, op.isDropped = false ∧ op.Refused) ∧
    ∃ front rest insts rs st', mis = front ++ rest ∧ lowerAll front st = .ok insts st' ∧
      List.Forall₂ (fun mi r => ∃ inst, IsRecordOf mi inst r) front rs ∧
      rs.map Record.inst = insts.map some ∧
      st'.session.object = rs.foldl Object.append st.session.object ∧
      st'.session.object.records = st.session.object.records ++ rs ∧
      (rest = [] ∨ ∃ mi later f st'', rest = mi :: later ∧ Fails mi st' f ∧
        lowerAll mis st = .error f st'' ∧ st''.session.object = st'.session.object) := by
  constructor
  · intro mi hmi st'
    rw [exists_lower_error_iff (h mi hmi)]
    simp [ownOperands, and_assoc]
  · obtain ⟨front, rest, insts, rs, st', hmis, hdone, hrest⟩ := exists_done h st
    refine ⟨front, rest, insts, rs, st', hmis, hdone.lowered, hdone.records, hdone.insts,
      hdone.object, ?_, hrest⟩
    rw [hdone.object, Object.records_foldl_append]

theorem lowerAll_prefix_exact_frame_index :
    ∃ (mi mi' : MachineInstr) (st : State) (r : Record) (st₁ : State) (f : Failure) (st₂ : State),
      mi = ⟨some "ORri", [.register (.int 34) 0 false, .register (.int 2) 0 true,
        .register (.int 5) 0 false, .registerMask, .immediate (.int 7)]⟩ ∧
      mi' = ⟨some "ORri", [.other (.text "frame_index")]⟩ ∧
      st = ⟨.new (.int 0) ".L", .new .mc88100 0 0x1000⟩ ∧
      (∀ m ∈ [mi, mi'], m.IsTyped) ∧
      lowerAll [mi] st = .ok [⟨some "ORri", [.reg 3, .reg 5, .imm 7], none⟩] st₁ ∧
      st₁.session.object.records = [r] ∧
      lowerAll [mi, mi'] st = .error f st₂ ∧ st₂.session.object = st₁.session.object := by
  obtain ⟨mi, hmi⟩ : ∃ mi : MachineInstr, mi = ⟨some "ORri", [.register (.int 34) 0 false,
    .register (.int 2) 0 true, .register (.int 5) 0 false, .registerMask, .immediate (.int 7)]⟩ :=
    ⟨_, rfl⟩
  obtain ⟨mi', hmi'⟩ : ∃ mi' : MachineInstr, mi' = ⟨some "ORri", [.other (.text "frame_index")]⟩ :=
    ⟨_, rfl⟩
  obtain ⟨st, hst⟩ : ∃ st : State, st = ⟨.new (.int 0) ".L", .new .mc88100 0 0x1000⟩ := ⟨_, rfl⟩
  have htyped : ∀ m ∈ [mi, mi'], m.IsTyped := by
    simp [hmi, hmi', MachineInstr.IsTyped, MachineOperand.IsTyped]
  obtain ⟨st₁, hfirst⟩ : ∃ st₁, lowerAll [mi] st =
      .ok [⟨some "ORri", [.reg 3, .reg 5, .imm 7], none⟩] st₁ := by
    subst hmi hst
    exact eq_ok_of_run' (by decide +kernel)
  have hsecond : (lowerAll [mi, mi']).run' st = none := by
    subst hmi hmi' hst
    decide +kernel
  obtain ⟨_, front, rest, insts, rs, st', hmis, hlowered, hrecords, _, _, hobject, hrest⟩ :=
    lowerAll_prefix_exact htyped st
  rcases front with _ | ⟨x, _ | ⟨y, front⟩⟩
  · obtain rfl : [mi, mi'] = rest := hmis
    rcases hrest with hnil | ⟨_, _, f, _, hcons, hfails, _⟩
    · cases hnil
    · cases hcons
      obtain ⟨_, herror, _⟩ := hfails.lowerAll_eq (htyped _ List.mem_cons_self) []
      cases hlowered
      cases hfirst.symm.trans herror
  · cases hmis
    cases hfirst.symm.trans hlowered
    rcases hrest with hnil | ⟨_, _, f, st₂, _, _, herror, hsame⟩
    · cases hnil
    · obtain ⟨r, rfl⟩ := List.length_eq_one_iff.mp hrecords.length_eq.symm
      subst hst
      exact ⟨mi, mi', _, r, st₁, f, st₂, hmi, hmi', rfl, htyped, hfirst, hobject, herror, hsame⟩
  · obtain ⟨rfl, rfl, hnil⟩ : x = mi ∧ y = mi' ∧ front ++ rest = [] := by
      simpa [eq_comm] using hmis
    obtain ⟨rfl, rfl⟩ := List.append_eq_nil_iff.mp hnil
    delta EStateM.run' EStateM.run at hsecond
    rw [hlowered] at hsecond
    cases hsecond

end Lowering
end Asm88000

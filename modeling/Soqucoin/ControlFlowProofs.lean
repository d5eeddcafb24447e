import Soqucoin.ScriptRunProofs

/-! # ControlFlowProofs — conditionals of witness v6 scripts

`EvalScript` reads a script from the front and keeps one flag for every open conditional.  The
other reading of a script is its nesting: a tree whose conditionals have one or two branches,
evaluated by choosing a branch.  The two agree.  A branch that is not chosen is still read, so the
limit on the size of a push holds in it as well. -/

namespace Soqucoin

open CheckedLoop

/-! ## Nested scripts -/

/-- A properly nested script: instructions and conditionals, each conditional with or
    without a second branch, and what follows. -/
inductive Code
  | done
  | instr (opcode : UInt8) (data : Bytes) (next : Code)
  | cond (notIf : Bool) (yes next : Code)
  | condElse (notIf : Bool) (yes no next : Code)

namespace Code

/-- The opcode that opens a conditional. -/
def condOpcode (notIf : Bool) : UInt8 := if notIf then OP_NOTIF else OP_IF

/-- The instructions of structured code. -/
def instrs : Code → List Instr
  | done => []
  | instr opcode data next => (opcode, data) :: next.instrs
  | cond notIf yes next => (condOpcode notIf, []) :: yes.instrs ++ (OP_ENDIF, []) :: next.instrs
  | condElse notIf yes no next =>
    (condOpcode notIf, []) :: yes.instrs ++ (OP_ELSE, []) :: no.instrs ++
      (OP_ENDIF, []) :: next.instrs

/-- The conditionals are those of the tree. -/
def Plain : Code → Prop
  | done => True
  | instr opcode _ next => opcode ∉ [OP_IF, OP_NOTIF, OP_ELSE, OP_ENDIF] ∧ next.Plain
  | cond _ yes next => yes.Plain ∧ next.Plain
  | condElse _ yes no next => yes.Plain ∧ no.Plain ∧ next.Plain

/-- No push exceeds the limit of an element. -/
def Small : Code → Prop
  | done => True
  | instr _ data next => data.length ≤ MAX_SCRIPT_ELEMENT_SIZE ∧ next.Small
  | cond _ yes next => yes.Small ∧ next.Small
  | condElse _ yes no next => yes.Small ∧ no.Small ∧ next.Small

section Eval

variable (crypto : ScriptCrypto) (checker : SignatureChecker) (flags : VerifyFlags)
  (sigversion : SigVersion) (script : CScript)

/-- An instruction that is not a conditional. -/
def evalInstr (opcode : UInt8) (data : Bytes) (stack : ScriptStack) :
    Except ScriptError ScriptStack := do
  require (data.length ≤ MAX_SCRIPT_ELEMENT_SIZE) .pushSize
  if OP_16 < opcode then executeOpcode crypto checker flags sigversion script opcode stack
  else .ok (pushedValue opcode data :: stack)

/-- The condition that `OP_IF` and `OP_NOTIF` take off the stack. -/
def popCondition (notIf : Bool) : ScriptStack → Except ScriptError (Bool × ScriptStack)
  | vch :: rest => do
      require (!flags.minimalIf || vch = [] || vch = [1]) .minimalif
      .ok (castToBool vch ^^ notIf, rest)
  | [] => .error .unbalancedConditional

/-- Only the chosen branches are evaluated. -/
def eval : Code → ScriptStack → Except ScriptError ScriptStack
  | done, stack => .ok stack
  | instr opcode data next, stack =>
    evalInstr crypto checker flags sigversion script opcode data stack >>= fun stack =>
      next.eval stack
  | cond notIf yes next, stack =>
    popCondition flags notIf stack >>= fun c =>
      (if c.1 then yes.eval c.2 else .ok c.2) >>= fun stack => next.eval stack
  | condElse notIf yes no next, stack =>
    popCondition flags notIf stack >>= fun c =>
      (if c.1 then yes.eval c.2 else no.eval c.2) >>= fun stack => next.eval stack

end Eval

end Code

variable {opcode : UInt8} {data : Bytes} {s t : ScriptState} {stack : ScriptStack}
  {vfExec : List Bool}

/-! ## One turn -/

section Turn

variable {crypto : ScriptCrypto} {checker : SignatureChecker} {flags : VerifyFlags}
  {sigversion : SigVersion} {script : CScript}

theorem evalOpcode_cond (hflag : flags.v6Controlflow) (notIf : Bool) (s : ScriptState) :
    evalOpcode crypto checker flags sigversion script (Code.condOpcode notIf) [] s =
      opIf flags (Code.condOpcode notIf) s := by
  cases notIf <;> simp +decide [evalOpcode, Code.condOpcode, hflag, require, ok_bind]

theorem evalOpcode_else (hflag : flags.v6Controlflow) (s : ScriptState) :
    evalOpcode crypto checker flags sigversion script OP_ELSE [] s = opElse s := by
  simp +decide [evalOpcode, hflag, require, ok_bind]

theorem evalOpcode_endIf (hflag : flags.v6Controlflow) (s : ScriptState) :
    evalOpcode crypto checker flags sigversion script OP_ENDIF [] s = opEndIf s := by
  simp +decide [evalOpcode, hflag, require, ok_bind]

/-- In a branch that is taken, an opcode does to the stack what it does in plain code. -/
theorem evalOpcode_taken (hop : opcode ∉ [OP_IF, OP_NOTIF, OP_ELSE, OP_ENDIF]) (hexec : s.fExec) :
    evalOpcode crypto checker flags sigversion script opcode data s =
      (Code.evalInstr crypto checker flags sigversion script opcode data s.stack >>= fun stack =>
        .ok { s with stack := stack }) := by
  simp only [List.mem_cons, List.not_mem_nil, or_false, not_or] at hop
  obtain ⟨hif, hnotif, helse, hendif⟩ := hop
  rw [evalOpcode, Code.evalInstr, bind_assoc]
  congr 1
  funext u
  by_cases h16 : OP_16 < opcode
  · simp [h16, hif, hnotif, helse, hendif, hexec]
  · simp only [h16, hexec, if_true, if_false]
    rfl

/-- In a branch that is not taken an instruction does nothing. -/
theorem evalOpcode_skipped (hop : opcode ∉ [OP_IF, OP_NOTIF, OP_ELSE, OP_ENDIF])
    (hexec : s.fExec = false) (hdata : data.length ≤ MAX_SCRIPT_ELEMENT_SIZE) :
    evalOpcode crypto checker flags sigversion script opcode data s = .ok s := by
  simp only [List.mem_cons, List.not_mem_nil, or_false, not_or] at hop
  obtain ⟨hif, hnotif, helse, hendif⟩ := hop
  rw [evalOpcode, decide_eq_true hdata]
  simp [hif, hnotif, helse, hendif, hexec, require]
  rfl

/-! ## Runs -/

section

variable (hflag : flags.v6Controlflow = true)
include hflag

theorem runInstrs_else (instrs : List Instr) (stack : ScriptStack) (f : Bool) (vfExec : List Bool) :
    runInstrs crypto checker flags sigversion script ((OP_ELSE, []) :: instrs)
        ⟨stack, f :: vfExec⟩ =
      runInstrs crypto checker flags sigversion script instrs ⟨stack, (!f) :: vfExec⟩ := by
  rw [runInstrs_cons, evalOpcode_else hflag]
  rfl

theorem runInstrs_endIf (instrs : List Instr) (stack : ScriptStack) (f : Bool)
    (vfExec : List Bool) :
    runInstrs crypto checker flags sigversion script ((OP_ENDIF, []) :: instrs)
        ⟨stack, f :: vfExec⟩ =
      runInstrs crypto checker flags sigversion script instrs ⟨stack, vfExec⟩ := by
  rw [runInstrs_cons, evalOpcode_endIf hflag]
  rfl

/-- In a branch that is not taken, code does nothing. -/
theorem runInstrs_skipped {c : Code} (hplain : c.Plain) (hsmall : c.Small)
    (hexec : vfExec.all id = false) :
    runInstrs crypto checker flags sigversion script c.instrs ⟨stack, vfExec⟩ =
      .ok ⟨stack, vfExec⟩ := by
  have hif : ∀ (notIf : Bool) {vfExec : List Bool}, vfExec.all id = false →
      evalOpcode crypto checker flags sigversion script (Code.condOpcode notIf) []
        ⟨stack, vfExec⟩ = .ok ⟨stack, false :: vfExec⟩ := by
    intro notIf vfExec hs
    rw [evalOpcode_cond hflag, opIf, ScriptState.fExec, hs]
    rfl
  -- both branches of a conditional that is skipped are skipped
  have hinner : ∀ (f : Bool) {vfExec : List Bool}, vfExec.all id = false →
      (f :: vfExec).all id = false := by
    intro f vfExec hs
    rw [List.all_cons, hs, Bool.and_false]
  induction c generalizing vfExec with
  | done => rfl
  | instr opcode data next ih =>
    rw [Code.instrs, runInstrs_cons,
      evalOpcode_skipped (s := ⟨stack, vfExec⟩) hplain.1 hexec hsmall.1, ok_bind]
    exact ih hplain.2 hsmall.2 hexec
  | cond notIf yes next ihyes ihnext =>
    rw [Code.instrs, List.cons_append, runInstrs_cons, hif notIf hexec, ok_bind,
      runInstrs_append, ihyes hplain.1 hsmall.1 (hinner false hexec), ok_bind,
      runInstrs_endIf hflag]
    exact ihnext hplain.2 hsmall.2 hexec
  | condElse notIf yes no next ihyes ihno ihnext =>
    rw [Code.instrs, List.append_assoc, List.cons_append, runInstrs_cons, hif notIf hexec,
      ok_bind, runInstrs_append, ihyes hplain.1 hsmall.1 (hinner false hexec), ok_bind,
      List.cons_append, runInstrs_else hflag, runInstrs_append,
      ihno hplain.2.1 hsmall.2.1 (hinner _ hexec), ok_bind, runInstrs_endIf hflag]
    exact ihnext hplain.2.2 hsmall.2.2 hexec

/-- A conditional that is reached pops its condition. -/
theorem evalOpcode_cond_taken (notIf : Bool) (hexec : vfExec.all id) :
    evalOpcode crypto checker flags sigversion script (Code.condOpcode notIf) [] ⟨stack, vfExec⟩ =
      (Code.popCondition flags notIf stack >>= fun c => .ok ⟨c.2, c.1 :: vfExec⟩) := by
  have hop : decide (Code.condOpcode notIf = OP_NOTIF) = notIf := by
    cases notIf <;> decide
  rw [evalOpcode_cond hflag, opIf, ScriptState.fExec, if_pos hexec, hop]
  cases stack with
  | nil => rfl
  | cons vch rest =>
    rw [Code.popCondition, bind_assoc]
    rfl

/-- In a branch that is taken, code does what its structure says. -/
theorem runInstrs_taken {c : Code} (hplain : c.Plain) (hsmall : c.Small) (hexec : vfExec.all id) :
    runInstrs crypto checker flags sigversion script c.instrs ⟨stack, vfExec⟩ =
      (c.eval crypto checker flags sigversion script stack >>= fun stack =>
        .ok ⟨stack, vfExec⟩) := by
  induction c generalizing stack vfExec with
  | done => rfl
  | instr opcode data next ih =>
    rw [Code.instrs, runInstrs_cons, evalOpcode_taken (s := ⟨stack, vfExec⟩) hplain.1 hexec,
      Code.eval, bind_assoc, bind_assoc]
    congr 1
    funext stack
    exact ih hplain.2 hsmall.2 hexec
  | cond notIf yes next ihyes ihnext =>
    rw [Code.instrs, List.cons_append, runInstrs_cons, evalOpcode_cond_taken hflag notIf hexec,
      Code.eval, bind_assoc, bind_assoc]
    congr 1
    funext c
    obtain ⟨b, stack⟩ := c
    dsimp only
    rw [ok_bind, runInstrs_append, bind_assoc]
    cases b with
    | true =>
      rw [ihyes hplain.1 hsmall.1 (show (true :: vfExec).all id = true from hexec), bind_assoc]
      simp only [ok_bind, runInstrs_endIf hflag, ihnext hplain.2 hsmall.2 hexec, if_true]
    | false =>
      rw [runInstrs_skipped hflag hplain.1 hsmall.1
        (show (false :: vfExec).all id = false from rfl)]
      simp only [ok_bind, runInstrs_endIf hflag, ihnext hplain.2 hsmall.2 hexec,
        Bool.false_eq_true, if_false]
  | condElse notIf yes no next ihyes ihno ihnext =>
    rw [Code.instrs, List.append_assoc, List.cons_append, runInstrs_cons,
      evalOpcode_cond_taken hflag notIf hexec, Code.eval, bind_assoc, bind_assoc]
    congr 1
    funext c
    obtain ⟨b, stack⟩ := c
    dsimp only
    rw [ok_bind, runInstrs_append, List.cons_append, bind_assoc]
    -- the flag is turned at the else, so of the two branches the other one is skipped
    cases b with
    | true =>
      rw [ihyes hplain.1 hsmall.1 (show (true :: vfExec).all id = true from hexec), bind_assoc]
      simp only [ok_bind, runInstrs_else hflag, runInstrs_append, if_true, Bool.not_true,
        runInstrs_skipped hflag hplain.2.1 hsmall.2.1
          (show (false :: vfExec).all id = false from rfl), runInstrs_endIf hflag,
        ihnext hplain.2.2 hsmall.2.2 hexec]
    | false =>
      rw [runInstrs_skipped hflag hplain.1 hsmall.1
        (show (false :: vfExec).all id = false from rfl),
        ok_bind, runInstrs_else hflag, runInstrs_append, Bool.not_false,
        ihno hplain.2.1 hsmall.2.1 (show (true :: vfExec).all id = true from hexec), bind_assoc]
      simp only [ok_bind, runInstrs_endIf hflag, ihnext hplain.2.2 hsmall.2.2 hexec,
        Bool.false_eq_true, if_false]

end

/-! ## Balance -/

/-- The number of open conditionals behind the instructions, if none is closed that is not open. -/
def openConditionals : Nat → List Instr → Option Nat
  | n, [] => some n
  | n, i :: instrs =>
    if i.1 = OP_IF ∨ i.1 = OP_NOTIF then openConditionals (n + 1) instrs
    else if i.1 = OP_ENDIF then if n = 0 then none else openConditionals (n - 1) instrs
    else openConditionals n instrs

/-- Every conditional is closed, and nothing else. -/
def Balanced (instrs : List Instr) : Prop := openConditionals 0 instrs = some 0

/-- OP_IF opens a level. -/
theorem length_vfExec_opIf (h : opIf flags opcode s = .ok t) :
    t.vfExec.length = s.vfExec.length + 1 := by
  rw [opIf] at h
  split at h
  · split at h
    · replace h := after_require h
      cases h
      rfl
    · cases h
  · cases h
    rfl

/-- OP_ELSE keeps the level. -/
theorem length_vfExec_opElse (h : opElse s = .ok t) : t.vfExec.length = s.vfExec.length := by
  rw [opElse] at h
  split at h
  next hvf =>
    cases h
    rw [hvf]
    rfl
  · cases h

/-- OP_ENDIF closes a level. -/
theorem length_vfExec_opEndIf (h : opEndIf s = .ok t) : s.vfExec.length = t.vfExec.length + 1 := by
  rw [opEndIf] at h
  split at h
  next hvf =>
    cases h
    rw [hvf]
    rfl
  · cases h

/-- How an opcode changes the number of open conditionals. -/
theorem length_vfExec_evalOpcode (hflag : flags.v6Controlflow)
    (h : evalOpcode crypto checker flags sigversion script opcode data s = .ok t) :
    if opcode = OP_IF ∨ opcode = OP_NOTIF then t.vfExec.length = s.vfExec.length + 1
    else if opcode = OP_ENDIF then s.vfExec.length = t.vfExec.length + 1
    else t.vfExec.length = s.vfExec.length := by
  rw [evalOpcode] at h
  replace h := after_require h
  rw [hflag] at h
  simp only [Bool.true_and, Bool.or_eq_true, decide_eq_true_eq] at h
  by_cases h16 : OP_16 < opcode
  · rw [if_pos h16] at h
    by_cases hif : opcode = OP_IF ∨ opcode = OP_NOTIF
    · rw [if_pos hif] at h ⊢
      exact length_vfExec_opIf h
    · rw [if_neg hif] at h ⊢
      by_cases helse : opcode = OP_ELSE
      · rw [if_pos helse] at h
        rw [helse, if_neg (by decide)]
        exact length_vfExec_opElse h
      · rw [if_neg helse] at h
        by_cases hend : opcode = OP_ENDIF
        · rw [if_pos hend] at h ⊢
          exact length_vfExec_opEndIf h
        · rw [if_neg hend] at h ⊢
          split at h
          · obtain ⟨stack, -, h⟩ := bind_eq_ok.mp h
            cases h
            rfl
          · cases h
            rfl
  · rw [if_neg h16] at h
    -- the conditionals lie above the pushes
    have hif : ¬(opcode = OP_IF ∨ opcode = OP_NOTIF) := by
      rintro (rfl | rfl)
      · exact h16 (by decide)
      · exact h16 (by decide)
    have hend : opcode ≠ OP_ENDIF := by
      rintro rfl
      exact h16 (by decide)
    rw [if_neg hif, if_neg hend]
    split at h
    · cases h
      rfl
    · cases h
      rfl

/-- A run opens and closes as many conditionals as its instructions do. -/
theorem openConditionals_of_run (hflag : flags.v6Controlflow) {instrs : List Instr}
    (h : runInstrs crypto checker flags sigversion script instrs s = .ok t) :
    openConditionals s.vfExec.length instrs = some t.vfExec.length := by
  induction instrs generalizing s with
  | nil =>
    cases h
    rfl
  | cons i instrs ih =>
    rw [runInstrs_cons] at h
    obtain ⟨s', hturn, hrest⟩ := bind_eq_ok.mp h
    have hlen := length_vfExec_evalOpcode hflag hturn
    rw [openConditionals, ← ih hrest]
    split_ifs at hlen ⊢ with hopen hclose hzero
    · rw [hlen]
    · omega
    · rw [hlen, Nat.add_sub_cancel]
    · rw [hlen]

/-- A script whose conditionals do not match fails. -/
theorem evalScript_unbalanced (hflag : flags.v6Controlflow)
    (h : ∀ instrs, Decodes script instrs → ¬Balanced instrs) (stack : ScriptStack) :
    ∃ e, evalScript crypto checker flags sigversion script stack = .error e := by
  cases hrun : evalScript crypto checker flags sigversion script stack with
  | error e => exact ⟨e, rfl⟩
  | ok out =>
    obtain ⟨t, hloop, -⟩ := bind_eq_ok.mp (show (evalLoop _ _ _ _ _ _ _ _ >>= _) = _ from hrun)
    obtain ⟨instrs, hdec⟩ := decodes_of_evalLoop hloop
    rw [evalScript_of_decodes hdec, bind_eq_ok] at hrun
    obtain ⟨t, ht, hrun⟩ := hrun
    obtain ⟨hempty, -⟩ := require_bind_eq_ok.mp hrun
    rw [hflag, Bool.not_true, Bool.false_or, List.isEmpty_iff] at hempty
    have hopen := openConditionals_of_run hflag ht
    rw [hempty] at hopen
    exact absurd hopen (h instrs hdec)

end Turn

/-- With the control-flow rules, a nested script without a push above the limit does what
    its tree does; a branch that is not taken leaves the state, whatever it is; and a
    script that is not balanced fails on every stack. -/
theorem control_flow_restored (crypto : ScriptCrypto) (checker : SignatureChecker)
    (flags : VerifyFlags) (sigversion : SigVersion) (hflag : flags.v6Controlflow = true) :
    (∀ script (c : Code) stack, c.Plain → c.Small → Decodes script c.instrs →
      evalScript crypto checker flags sigversion script stack =
        (c.eval crypto checker flags sigversion script stack >>= fun stack =>
          require (!stack.isEmpty) .evalFalse >>= fun _ => .ok stack)) ∧
    (∀ script (c : Code) (s : ScriptState), c.Plain → c.Small → s.fExec = false →
      runInstrs crypto checker flags sigversion script c.instrs s = .ok s) ∧
    ∀ script stack, (∀ instrs, Decodes script instrs → ¬Balanced instrs) →
      ∃ e, evalScript crypto checker flags sigversion script stack = .error e := by
  refine ⟨?_, ?_, fun script stack h => evalScript_unbalanced hflag h stack⟩
  · intro script c stack hplain hsmall hdec
    rw [evalScript_of_decodes hdec, runInstrs_taken hflag hplain hsmall rfl, bind_assoc]
    congr 1
    funext stack'
    rw [ok_bind, List.isEmpty_nil, Bool.or_true]
    rfl
  · intro script c s hplain hsmall hexec
    exact runInstrs_skipped hflag hplain hsmall hexec

namespace Sample

/-- Code with a long push in the branch that is not taken. -/
def unselectedPush (size : Nat) : Code :=
  .instr OP_0 [] (.cond false (.instr OP_PUSHDATA2 (List.replicate size 0) .done)
    (.instr OP_1 [] .done))

/-- Its bytes. -/
def unselectedPushScript (size : Nat) : CScript :=
  OP_0 :: OP_IF :: OP_PUSHDATA2 ::
    (writeLE 2 size ++ (List.replicate size 0 ++ [OP_ENDIF, OP_1]))

/-- The flags with v6 control flow. -/
def controlflowFlags : VerifyFlags := { genesisFlags with v6Controlflow := true }

theorem unselectedPush_decodes {size : Nat} (h : size < 2 ^ 16) :
    Decodes (unselectedPushScript size) (unselectedPush size).instrs := by
  have hzero : ∀ rest, getOp (OP_0 :: rest) = some (OP_0, [], rest) := fun rest =>
    getOp_of_pushSize (by decide) (pushSize_direct (by decide) rest)
  have hpush : ∀ rest, getOp (OP_PUSHDATA2 :: (writeLE 2 size ++ (List.replicate size 0 ++ rest))) =
      some (OP_PUSHDATA2, List.replicate size 0, rest) := by
    intro rest
    refine getOp_of_pushSize (by decide) ?_
    rw [pushSize_sized (by decide) (by decide) h, List.length_replicate]
  refine .cons (hzero _) (.opcode (by decide) ?_)
  exact .cons (hpush _) (.opcode (by decide) (.opcode (by decide) .nil))

end Sample

/-- A push of 520 bytes in the branch that is not taken. -/
theorem control_flow_restored_unselected_push :
    evalScript Sample.crypto Sample.checker Sample.controlflowFlags .witnessV0
        (Sample.unselectedPushScript 520) [] =
      ((Sample.unselectedPush 520).eval Sample.crypto Sample.checker Sample.controlflowFlags
        .witnessV0 (Sample.unselectedPushScript 520) [] >>= fun stack =>
          require (!stack.isEmpty) .evalFalse >>= fun _ => .ok stack) :=
  (control_flow_restored Sample.crypto Sample.checker Sample.controlflowFlags .witnessV0 rfl).1
    _ _ _ ⟨by decide, ⟨⟨by decide, trivial⟩, by decide, trivial⟩⟩
    ⟨by decide, ⟨⟨(List.length_replicate ..).le, trivial⟩, by decide, trivial⟩⟩
    (Sample.unselectedPush_decodes (by decide))

/-- One byte more, and the script fails although its branch is not taken. -/
theorem unselected_push_too_large :
    Decodes (Sample.unselectedPushScript 521) (Sample.unselectedPush 521).instrs ∧
    (Sample.unselectedPush 521).eval Sample.crypto Sample.checker Sample.controlflowFlags .witnessV0
      (Sample.unselectedPushScript 521) [] = .ok [[1]] ∧
    evalScript Sample.crypto Sample.checker Sample.controlflowFlags .witnessV0
      (Sample.unselectedPushScript 521) [] = .error .pushSize := by
  refine ⟨Sample.unselectedPush_decodes (by decide), ?_, ?_⟩
  · decide +kernel
  · decide +kernel

end Soqucoin

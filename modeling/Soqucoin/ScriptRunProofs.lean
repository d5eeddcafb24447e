import Soqucoin.InterpreterProofs
import Soqucoin.PushProofs

/-! # ScriptRunProofs — the loop of `EvalScript` over instructions

`GetOp` cuts a script into instructions, and the loop folds `evalOpcode` over
them.  A script that is not cut to its end fails.  Statements about runs are made
over the instructions: a run is split where its list of instructions is. -/

namespace Soqucoin

open CheckedLoop

theorem ok_bind {ε α β : Type} (a : α) (f : α → Except ε β) : (Except.ok a >>= f) = f a := rfl

/-- An opcode and the data it pushes. -/
abbrev Instr := UInt8 × Bytes

/-- The script is cut into these instructions. -/
inductive Decodes : Bytes → List Instr → Prop
  | nil : Decodes [] []
  | cons {pc rest : Bytes} {opcode : UInt8} {data : Bytes} {instrs : List Instr}
      (hop : getOp pc = some (opcode, data, rest)) (hrest : Decodes rest instrs) :
      Decodes pc ((opcode, data) :: instrs)

variable {instrs : List Instr} {pc : Bytes} {fuel : Nat}

namespace Decodes

theorem pushData {data rest : Bytes} (hlen : data.length < 2 ^ 32) (h : Decodes rest instrs) :
    ∃ opcode ≤ OP_PUSHDATA4, pushedValue opcode data = data ∧
      Decodes (Soqucoin.pushData data ++ rest) ((opcode, data) :: instrs) := by
  obtain ⟨opcode, hle, hvalue, hop⟩ := getOp_pushData hlen rest
  exact ⟨opcode, hle, hvalue, .cons hop h⟩

theorem opcode {opcode : UInt8} {rest : Bytes} {instrs : List Instr} (hop : OP_PUSHDATA4 < opcode)
    (h : Decodes rest instrs) : Decodes (opcode :: rest) ((opcode, []) :: instrs) :=
  .cons (getOp_opcode hop rest) h

end Decodes

section Run

variable (crypto : ScriptCrypto) (checker : SignatureChecker) (flags : VerifyFlags)
  (sigversion : SigVersion) (script : CScript)

/-- The instructions executed one after the other. -/
def runInstrs (instrs : List Instr) (s : ScriptState) : Except ScriptError ScriptState :=
  instrs.foldlM (fun s i => evalOpcode crypto checker flags sigversion script i.1 i.2 s) s

variable {crypto checker flags sigversion script}

theorem runInstrs_cons (i : Instr) (instrs : List Instr) (s : ScriptState) :
    runInstrs crypto checker flags sigversion script (i :: instrs) s =
      evalOpcode crypto checker flags sigversion script i.1 i.2 s >>=
        runInstrs crypto checker flags sigversion script instrs := rfl

theorem runInstrs_append (is is' : List Instr) (s : ScriptState) :
    runInstrs crypto checker flags sigversion script (is ++ is') s =
      runInstrs crypto checker flags sigversion script is s >>=
        runInstrs crypto checker flags sigversion script is' :=
  List.foldlM_append

/-- A script that decodes runs instruction by instruction. -/
theorem evalLoop_of_decodes (h : Decodes pc instrs) (hfuel : pc.length ≤ fuel) (s : ScriptState) :
    evalLoop crypto checker flags sigversion script fuel pc s =
      runInstrs crypto checker flags sigversion script instrs s := by
  induction h generalizing fuel s with
  | nil =>
    rw [evalLoop]
    rfl
  | @cons pc rest opcode data instrs hop _ ih =>
    have hlt := getOp_length_lt hop
    cases pc with
    | nil => cases hop
    | cons b bs =>
      cases fuel with
      | zero => cases hfuel
      | succ fuel =>
        rw [evalLoop, hop, runInstrs_cons]
        dsimp only
        congr 1
        funext s'
        -- an opcode takes at least one byte, so the fuel of the script's length is enough
        exact ih (by omega) s'

/-- A script that runs to its end decodes. -/
theorem decodes_of_evalLoop {s t : ScriptState}
    (h : evalLoop crypto checker flags sigversion script fuel pc s = .ok t) :
    ∃ instrs, Decodes pc instrs := by
  induction fuel generalizing pc s with
  | zero =>
    cases pc with
    | nil => exact ⟨[], .nil⟩
    | cons => cases h
  | succ fuel ih =>
    cases pc with
    | nil => exact ⟨[], .nil⟩
    | cons b bs =>
      rw [evalLoop] at h
      cases hop : getOp (b :: bs) with
      | none =>
        rw [hop] at h
        cases h
      | some r =>
        obtain ⟨opcode, data, rest⟩ := r
        rw [hop] at h
        obtain ⟨s', -, hrest⟩ := bind_eq_ok.mp h
        obtain ⟨instrs, hinstrs⟩ := ih hrest
        exact ⟨_, .cons hop hinstrs⟩

theorem evalScript_of_decodes (h : Decodes script instrs) (stack : ScriptStack) :
    evalScript crypto checker flags sigversion script stack =
      (runInstrs crypto checker flags sigversion script instrs ⟨stack, []⟩ >>= fun s =>
        require (!flags.v6Controlflow || s.vfExec.isEmpty) .unbalancedConditional >>= fun _ =>
          require (!s.stack.isEmpty) .evalFalse >>= fun _ => .ok s.stack) := by
  rw [evalScript, evalLoop_of_decodes h le_rfl]

/-- The run of a script on a stack comes to an opcode, to be executed on a stack. -/
def Executes (crypto : ScriptCrypto) (checker : SignatureChecker) (flags : VerifyFlags)
    (sigversion : SigVersion) (script : CScript) (stack : ScriptStack) (opcode : UInt8)
    (top : ScriptStack) : Prop :=
  ∃ before data after s, Decodes script (before ++ (opcode, data) :: after) ∧
    runInstrs crypto checker flags sigversion script before ⟨stack, []⟩ = .ok s ∧
    s.fExec = true ∧ s.stack = top

/-- In a successful run, an opcode that is come by succeeds. -/
theorem Executes.executeOpcode_ok {stack top out : ScriptStack} {opcode : UInt8}
    (h : Executes crypto checker flags sigversion script stack opcode top) (hop : OP_16 < opcode)
    (hcond : opcode ∉ [OP_IF, OP_NOTIF, OP_ELSE, OP_ENDIF])
    (hrun : evalScript crypto checker flags sigversion script stack = .ok out) :
    ∃ top', executeOpcode crypto checker flags sigversion script opcode top = .ok top' := by
  obtain ⟨before, data, after, s, hdec, hbefore, hexec, rfl⟩ := h
  rw [evalScript_of_decodes hdec, runInstrs_append, hbefore] at hrun
  obtain ⟨t, ht, -⟩ := bind_eq_ok.mp hrun
  obtain ⟨s', hs', -⟩ := bind_eq_ok.mp (show (evalOpcode _ _ _ _ _ _ _ _ >>= _) = .ok t from ht)
  simp only [List.mem_cons, List.not_mem_nil, or_false, not_or] at hcond
  obtain ⟨hif, hnotif, helse, hendif⟩ := hcond
  rw [evalOpcode, require_bind_eq_ok] at hs'
  simp only [hop, hif, hnotif, helse, hendif, hexec, if_true, decide_false, Bool.or_self,
    Bool.and_false, Bool.false_eq_true, if_false] at hs'
  obtain ⟨top', htop', -⟩ := bind_eq_ok.mp hs'.2
  exact ⟨top', htop'⟩

/-! ## The scan of a witness script -/

/-- The opcodes that only their own witness versions run. -/
def assetOpcodes : List UInt8 :=
  [OP_USDSOQ_MINT, OP_USDSOQ_BURN, OP_USDSOQ_FREEZE, OP_USDSOQ_ROTATE, OP_SOQUOBSCURA_RANGEPROOF,
    OP_CHECKFOLDPROOF, OP_CHECKPATAGG]

/-- The scan goes on behind the opcode. -/
def ScanAllows (opcode : UInt8) : Prop :=
  opcode ∉ assetOpcodes ∧ isWitnessV6ScriptOpcode opcode = true

instance decidableScanAllows (opcode : UInt8) : Decidable (ScanAllows opcode) :=
  inferInstanceAs (Decidable (opcode ∉ assetOpcodes ∧ isWitnessV6ScriptOpcode opcode = true))

/-- A script of allowed opcodes passes the scan. -/
theorem scanWitnessScript_of_decodes (h : Decodes pc instrs) (hops : ∀ i ∈ instrs, ScanAllows i.1)
    (hfuel : pc.length ≤ fuel) : scanWitnessScript fuel pc = .ok () := by
  induction h generalizing fuel with
  | nil => rw [scanWitnessScript]
  | @cons pc rest opcode data instrs hop _ ih =>
    have hlt := getOp_length_lt hop
    cases pc with
    | nil => cases hop
    | cons b bs =>
      cases fuel with
      | zero => cases hfuel
      | succ fuel =>
        obtain ⟨⟨hasset, hallowed⟩, hrest⟩ := List.forall_mem_cons.mp hops
        rw [scanWitnessScript, hop]
        dsimp only
        rw [require_bind_eq_ok, require_bind_eq_ok]
        refine ⟨?_, hallowed, ih hrest (by omega)⟩
        rw [Bool.not_eq_true', decide_eq_false_iff_not]
        exact hasset

/-! ## Instructions outside conditionals -/

/-- A push within the limit puts its data on the stack. -/
theorem evalOpcode_push {opcode : UInt8} {data : Bytes} (hop : opcode ≤ OP_PUSHDATA4)
    (hdata : data.length ≤ MAX_SCRIPT_ELEMENT_SIZE) (stack : ScriptStack) :
    evalOpcode crypto checker flags sigversion script opcode data ⟨stack, []⟩ =
      .ok ⟨pushedValue opcode data :: stack, []⟩ := by
  have hle : ¬OP_16 < opcode := UInt8.not_lt.mpr (UInt8.le_trans hop (by decide))
  rw [evalOpcode, decide_eq_true hdata]
  simp [hle, ScriptState.fExec, require]
  rfl

/-- Outside conditionals an opcode is executed. -/
theorem evalOpcode_execute {opcode : UInt8} (hop : OP_16 < opcode)
    (hcond : opcode ∉ [OP_IF, OP_NOTIF, OP_ELSE, OP_ENDIF]) (stack : ScriptStack) :
    evalOpcode crypto checker flags sigversion script opcode [] ⟨stack, []⟩ =
      (executeOpcode crypto checker flags sigversion script opcode stack >>= fun stack =>
        .ok ⟨stack, []⟩) := by
  simp only [List.mem_cons, List.not_mem_nil, or_false, not_or] at hcond
  obtain ⟨hif, hnotif, helse, hendif⟩ := hcond
  simp [evalOpcode, hop, hif, hnotif, helse, hendif, ScriptState.fExec, require]
  rfl

end Run

end Soqucoin

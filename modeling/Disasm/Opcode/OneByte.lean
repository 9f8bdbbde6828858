import Disasm.Opcode.X87

/-!
# The one-byte opcode map

All 256 opcodes in order, in rows of eight. Prefix bytes, the escape 0F and the undocumented D6 are
undefined here.
-/

namespace Disasm.OpcodeMap

open Mnemonic OperandSpec FormFlags Entry

/-- The six forms that start each of the eight arithmetic rows. -/
def arithmetic (m : Mnemonic) : List Entry :=
  [op m [Eb, Gb], op m [Ev, Gv], op m [Gb, Eb], op m [Gv, Ev], op m [AL, Ib], op m [rAX, Iz]]

/-- The eight arithmetic operations on the same operands, picked by ModRM.reg. -/
def arithmeticGroup (operands : List OperandSpec) (flags : FormFlags := {}) : Entry :=
  byReg (op ADD operands flags) (op OR operands flags) (op ADC operands flags)
    (op SBB operands flags) (op AND operands flags) (op SUB operands flags)
    (op XOR operands flags) (op CMP operands flags)

/-- The rotations and shifts on the same operands, picked by ModRM.reg. -/
def shiftGroup (operands : List OperandSpec) : Entry :=
  byReg (op ROL operands) (op ROR operands) (op RCL operands) (op RCR operands)
    (op SHL operands) (op SHR operands) (op SAL operands) (op SAR operands)

/-- One form where ModRM.reg is 0, and none elsewhere. -/
def onlyReg0 (e : Entry) : Entry :=
  byReg e undefined undefined undefined undefined undefined undefined undefined

/-- F6 and F7: tests and the operations with one operand. -/
def unaryGroup (target immediate : OperandSpec) : Entry :=
  byReg (op TEST [target, immediate]) (op TEST [target, immediate]) (op NOT [target])
    (op NEG [target]) (op MUL [target]) (op IMUL [target]) (op DIV [target]) (op IDIV [target])

def oneByteMap : List Entry :=
  -- 00 to 3F
  arithmetic ADD ++ [op PUSH [sES] i64, op POP [sES] i64] ++
  arithmetic OR ++ [op PUSH [sCS] i64, undefined] ++
  arithmetic ADC ++ [op PUSH [sSS] i64, op POP [sSS] i64] ++
  arithmetic SBB ++ [op PUSH [sDS] i64, op POP [sDS] i64] ++
  arithmetic AND ++ [undefined, op DAA [] i64] ++
  arithmetic SUB ++ [undefined, op DAS [] i64] ++
  arithmetic XOR ++ [undefined, op AAA [] i64] ++
  arithmetic CMP ++ [undefined, op AAS [] i64] ++
  -- 40 to 5F
  List.replicate 8 (op INC [Zv] i64) ++
  List.replicate 8 (op DEC [Zv] i64) ++
  List.replicate 8 (op PUSH [Zv] d64) ++
  List.replicate 8 (op POP [Zv] d64) ++
  -- 60
  [op PUSHA [] i64, op POPA [] i64, op BOUND [Gv, Ma] i64,
   byMode (op ARPL [Ew, Gw] i64) (op MOVSXD [Gv, Ed]),
   undefined, undefined, undefined, undefined] ++
  -- 68
  [op PUSH [Iz] d64, op IMUL [Gv, Ev, Iz], op PUSH [Ibs] d64, op IMUL [Gv, Ev, Ibs],
   op INSB, op INSW, op OUTSB, op OUTSW] ++
  -- 70 and 78
  [JO, JNO, JB, JAE, JE, JNE, JBE, JA, JS, JNS, JP, JNP, JL, JGE, JLE, JG].map (op · [Jb] f64) ++
  -- 80
  [arithmeticGroup [Eb, Ib], arithmeticGroup [Ev, Iz], arithmeticGroup [Eb, Ib] i64,
   arithmeticGroup [Ev, Ibs],
   op TEST [Eb, Gb], op TEST [Ev, Gv], op XCHG [Eb, Gb], op XCHG [Ev, Gv]] ++
  -- 88
  [op MOV [Eb, Gb], op MOV [Ev, Gv], op MOV [Gb, Eb], op MOV [Gv, Ev],
   op MOV [Ewv, Sw], op LEA [Gv, M], op MOV [Sw, Ew], onlyReg0 (op POP [Ev] d64)] ++
  -- 90
  List.replicate 8 (op XCHG [Zv, rAX]) ++
  -- 98
  [op CBW, op CWD, op CALLF [Ap] i64, op WAIT,
   op PUSHF [] d64, op POPF [] d64, op SAHF, op LAHF] ++
  -- A0
  [op MOV [AL, Ob], op MOV [rAX, Ov], op MOV [Ob, AL], op MOV [Ov, rAX],
   op MOVSB, op MOVSW, op CMPSB, op CMPSW] ++
  -- A8
  [op TEST [AL, Ib], op TEST [rAX, Iz], op STOSB, op STOSW,
   op LODSB, op LODSW, op SCASB, op SCASW] ++
  -- B0 and B8
  List.replicate 8 (op MOV [Zb, Ib]) ++
  List.replicate 8 (op MOV [Zv, Iv]) ++
  -- C0
  [shiftGroup [Eb, Ib], shiftGroup [Ev, Ib], op RET [Iw] f64, op RET [] f64,
   op LES [Gz, Mp] i64, op LDS [Gz, Mp] i64,
   onlyReg0 (op MOV [Eb, Ib]), onlyReg0 (op MOV [Ev, Iz])] ++
  -- C8
  [op ENTER [Iw, Ib] d64, op LEAVE [] d64, op RETF [Iw], op RETF,
   op INT3, op INT [Ib], op INTO [] i64, op IRET] ++
  -- D0
  [shiftGroup [Eb, One], shiftGroup [Ev, One], shiftGroup [Eb, CL], shiftGroup [Ev, CL],
   op AAM [Ib] i64, op AAD [Ib] i64, undefined, op XLATB] ++
  -- D8
  x87Map ++
  -- E0
  [op LOOPNE [Jb] f64, op LOOPE [Jb] f64, op LOOP [Jb] f64, op JCXZ [Jb] f64,
   op IN [AL, Ib], op IN [eAX, Ib], op OUT [Ib, AL], op OUT [Ib, eAX]] ++
  -- E8
  [op CALL [Jz] f64, op JMP [Jz] f64, op JMPF [Ap] i64, op JMP [Jb] f64,
   op IN [AL, DX], op IN [eAX, DX], op OUT [DX, AL], op OUT [DX, eAX]] ++
  -- F0
  [undefined, op INT1, undefined, undefined,
   op HLT, op CMC, unaryGroup Eb Ib, unaryGroup Ev Iz] ++
  -- F8
  [op CLC, op STC, op CLI, op STI,
   op CLD, op STD,
   byReg (op INC [Eb]) (op DEC [Eb]) undefined undefined undefined undefined undefined undefined,
   byReg (op INC [Ev]) (op DEC [Ev]) (op CALL [Ev] f64) (op CALLF [Mp]) (op JMP [Ev] f64)
     (op JMPF [Mp]) (op PUSH [Ev] d64) undefined]

/-- Every opcode has its place. -/
theorem length_oneByteMap : oneByteMap.length = 256 := by decide +kernel

end Disasm.OpcodeMap

import Disasm.Opcode.Operands

/-!
# Coprocessor opcodes

The opcodes D8 to DF are always followed by a ModRM byte. Where it names memory, ModRM.reg picks the
operation; where it names a register, ModRM.reg picks it too, and ModRM.rm is a stack register or
picks further.
-/

namespace Disasm.OpcodeMap

open Mnemonic OperandSpec Entry

/-- D8: single-precision arithmetic. -/
def x87D8 : Entry :=
  byMod
    (byReg (op FADD [Md]) (op FMUL [Md]) (op FCOM [Md]) (op FCOMP [Md])
      (op FSUB [Md]) (op FSUBR [Md]) (op FDIV [Md]) (op FDIVR [Md]))
    (byReg (op FADD [ST0, STi]) (op FMUL [ST0, STi]) (op FCOM [STi]) (op FCOMP [STi])
      (op FSUB [ST0, STi]) (op FSUBR [ST0, STi]) (op FDIV [ST0, STi]) (op FDIVR [ST0, STi]))

/-- D9: single-precision moves, the control word, constants and transcendental functions. -/
def x87D9 : Entry :=
  byMod
    (byReg (op FLD [Md]) undefined (op FST [Md]) (op FSTP [Md])
      (op FLDENV [M]) (op FLDCW [Mw]) (op FNSTENV [M]) (op FNSTCW [Mw]))
    (byReg (op FLD [STi]) (op FXCH [STi])
      (byRM (op FNOP) undefined undefined undefined undefined undefined undefined undefined)
      undefined
      (byRM (op FCHS) (op FABS) undefined undefined (op FTST) (op FXAM) undefined undefined)
      (byRM (op FLD1) (op FLDL2T) (op FLDL2E) (op FLDPI) (op FLDLG2) (op FLDLN2) (op FLDZ)
        undefined)
      (byRM (op F2XM1) (op FYL2X) (op FPTAN) (op FPATAN) (op FXTRACT) (op FPREM1) (op FDECSTP)
        (op FINCSTP))
      (byRM (op FPREM) (op FYL2XP1) (op FSQRT) (op FSINCOS) (op FRNDINT) (op FSCALE) (op FSIN)
        (op FCOS)))

/-- DA: doubleword integer arithmetic, and moves on a condition. -/
def x87DA : Entry :=
  byMod
    (byReg (op FIADD [Md]) (op FIMUL [Md]) (op FICOM [Md]) (op FICOMP [Md])
      (op FISUB [Md]) (op FISUBR [Md]) (op FIDIV [Md]) (op FIDIVR [Md]))
    (byReg (op FCMOVB [ST0, STi]) (op FCMOVE [ST0, STi]) (op FCMOVBE [ST0, STi])
      (op FCMOVU [ST0, STi]) undefined
      (byRM undefined (op FUCOMPP) undefined undefined undefined undefined undefined undefined)
      undefined undefined)

/-- DB: doubleword integer and extended-precision moves, and moves on a negated condition. -/
def x87DB : Entry :=
  byMod
    (byReg (op FILD [Md]) (op FISTTP [Md]) (op FIST [Md]) (op FISTP [Md])
      undefined (op FLD [Mt]) undefined (op FSTP [Mt]))
    (byReg (op FCMOVNB [ST0, STi]) (op FCMOVNE [ST0, STi]) (op FCMOVNBE [ST0, STi])
      (op FCMOVNU [ST0, STi])
      (byRM undefined undefined (op FNCLEX) (op FNINIT) undefined undefined undefined undefined)
      (op FUCOMI [ST0, STi]) (op FCOMI [ST0, STi]) undefined)

/-- DC: double-precision arithmetic. With a register the operands are reversed, and subtraction
and division change places with their reversed forms. -/
def x87DC : Entry :=
  byMod
    (byReg (op FADD [Mq]) (op FMUL [Mq]) (op FCOM [Mq]) (op FCOMP [Mq])
      (op FSUB [Mq]) (op FSUBR [Mq]) (op FDIV [Mq]) (op FDIVR [Mq]))
    (byReg (op FADD [STi, ST0]) (op FMUL [STi, ST0]) undefined undefined
      (op FSUBR [STi, ST0]) (op FSUB [STi, ST0]) (op FDIVR [STi, ST0]) (op FDIV [STi, ST0]))

/-- DD: double-precision and quadword moves, and the coprocessor's state. -/
def x87DD : Entry :=
  byMod
    (byReg (op FLD [Mq]) (op FISTTP [Mq]) (op FST [Mq]) (op FSTP [Mq])
      (op FRSTOR [M]) undefined (op FNSAVE [M]) (op FNSTSW [Mw]))
    (byReg (op FFREE [STi]) undefined (op FST [STi]) (op FSTP [STi])
      (op FUCOM [STi]) (op FUCOMP [STi]) undefined undefined)

/-- DE: word integer arithmetic, and arithmetic that pops. -/
def x87DE : Entry :=
  byMod
    (byReg (op FIADD [Mw]) (op FIMUL [Mw]) (op FICOM [Mw]) (op FICOMP [Mw])
      (op FISUB [Mw]) (op FISUBR [Mw]) (op FIDIV [Mw]) (op FIDIVR [Mw]))
    (byReg (op FADDP [STi, ST0]) (op FMULP [STi, ST0]) undefined
      (byRM undefined (op FCOMPP) undefined undefined undefined undefined undefined undefined)
      (op FSUBRP [STi, ST0]) (op FSUBP [STi, ST0]) (op FDIVRP [STi, ST0]) (op FDIVP [STi, ST0]))

/-- DF: word and quadword integer moves, packed decimals and comparisons that pop. -/
def x87DF : Entry :=
  byMod
    (byReg (op FILD [Mw]) (op FISTTP [Mw]) (op FIST [Mw]) (op FISTP [Mw])
      (op FBLD [Mt]) (op FILD [Mq]) (op FBSTP [Mt]) (op FISTP [Mq]))
    (byReg undefined undefined undefined undefined
      (byRM (op FNSTSW [AX]) undefined undefined undefined undefined undefined undefined
        undefined)
      (op FUCOMIP [ST0, STi]) (op FCOMIP [ST0, STi]) undefined)

/-- The opcodes D8 to DF. -/
def x87Map : List Entry := [x87D8, x87D9, x87DA, x87DB, x87DC, x87DD, x87DE, x87DF]

end Disasm.OpcodeMap

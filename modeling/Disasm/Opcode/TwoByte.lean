import Disasm.Opcode.Operands

/-!
# The two-byte opcode map

The 256 opcodes that follow 0F, in rows of eight. In many of them the selecting prefix (none, 66,
F3 or F2) chooses among several forms; in the groups ModRM takes part as well.
-/

namespace Disasm.OpcodeMap

open Mnemonic OperandSpec FormFlags Entry

/-! ## Groups -/

/-- 0F 00: segment registers of the system. -/
def group00 : Entry :=
  byReg (op SLDT [Ewv]) (op STR [Ewv]) (op LLDT [Ew]) (op LTR [Ew]) (op VERR [Ew]) (op VERW [Ew])
    undefined undefined

/-- 0F 01: descriptor tables with memory, system operations without operands with a register. -/
def group01 : Entry :=
  byMod
    (byReg (op SGDT [Ms]) (op SIDT [Ms]) (op LGDT [Ms]) (op LIDT [Ms]) (op SMSW [Ewv]) undefined
      (op LMSW [Ew]) (op INVLPG [Mb]))
    (byReg
      (byRM undefined (op VMCALL) (op VMLAUNCH) (op VMRESUME) (op VMXOFF) undefined undefined
        undefined)
      (byRM (op MONITOR) (op MWAIT) (op CLAC) (op STAC) undefined undefined undefined undefined)
      (byRM (op XGETBV) (op XSETBV) undefined undefined undefined undefined undefined undefined)
      undefined
      (op SMSW [Ewv])
      undefined
      (op LMSW [Ew])
      (byRM (op SWAPGS [] o64) (op RDTSCP) undefined undefined undefined undefined undefined
        undefined))

/-- 0F 0D: prefetches, from memory only. -/
def group0D : Entry :=
  byMod
    (byReg (op PREFETCH [Mb]) (op PREFETCHW [Mb]) (op PREFETCH [Mb]) (op PREFETCH [Mb])
      (op PREFETCH [Mb]) (op PREFETCH [Mb]) (op PREFETCH [Mb]) (op PREFETCH [Mb]))
    undefined

/-- 0F 12: moves to the low half. Without a prefix a register form moves from the high half. -/
def group12 : Entry :=
  byMod
    (bySelector (op MOVLPS [Vx, Mq]) (sel MOVLPD [Vx, Mq]) (sel MOVSLDUP [Vx, Wx])
      (sel MOVDDUP [Vx, Wq]))
    (bySelector (op MOVHLPS [Vx, Ux]) (sel MOVLPD [Vx, Mq]) (sel MOVSLDUP [Vx, Wx])
      (sel MOVDDUP [Vx, Wq]))

/-- 0F 16: moves to the high half. Without a prefix a register form moves from the low half. -/
def group16 : Entry :=
  byMod
    (bySelector (op MOVHPS [Vx, Mq]) (sel MOVHPD [Vx, Mq]) (sel MOVSHDUP [Vx, Wx]) undefined)
    (bySelector (op MOVLHPS [Vx, Ux]) (sel MOVHPD [Vx, Mq]) (sel MOVSHDUP [Vx, Wx]) undefined)

/-- 0F 18: prefetch hints; what is left over does nothing. -/
def group18 : Entry :=
  byMod
    (byReg (op PREFETCHNTA [Mb]) (op PREFETCHT0 [Mb]) (op PREFETCHT1 [Mb]) (op PREFETCHT2 [Mb])
      (op NOP [Ev]) (op NOP [Ev]) (op NOP [Ev]) (op NOP [Ev]))
    (op NOP [Ev])

/-- 0F 1E: does nothing, except that F3 makes branch landing marks of two ModRM values. -/
def group1E : Entry :=
  byMod
    (op NOP [Ev])
    (byReg (op NOP [Ev]) (op NOP [Ev]) (op NOP [Ev]) (op NOP [Ev]) (op NOP [Ev]) (op NOP [Ev])
      (op NOP [Ev])
      (byRM (op NOP [Ev]) (op NOP [Ev])
        (bySelector (op NOP [Ev]) (op NOP [Ev]) (sel ENDBR64) (op NOP [Ev]))
        (bySelector (op NOP [Ev]) (op NOP [Ev]) (sel ENDBR32) (op NOP [Ev]))
        (op NOP [Ev]) (op NOP [Ev]) (op NOP [Ev]) (op NOP [Ev])))

/-- A shift of an MMX register, or of an XMM register with 66, by an immediate count. -/
def vectorShift (m : Mnemonic) : Entry := plainOr66 (op m [Nq, Ib]) (sel m [Ux, Ib])

/-- 0F 71: shifts of packed words. -/
def group71 : Entry :=
  byMod undefined
    (byReg undefined undefined (vectorShift PSRLW) undefined (vectorShift PSRAW) undefined
      (vectorShift PSLLW) undefined)

/-- 0F 72: shifts of packed doublewords. -/
def group72 : Entry :=
  byMod undefined
    (byReg undefined undefined (vectorShift PSRLD) undefined (vectorShift PSRAD) undefined
      (vectorShift PSLLD) undefined)

/-- 0F 73: shifts of packed quadwords and, with 66, of whole registers by bytes. -/
def group73 : Entry :=
  byMod undefined
    (byReg undefined undefined (vectorShift PSRLQ) (only66 PSRLDQ [Ux, Ib]) undefined undefined
      (vectorShift PSLLQ) (only66 PSLLDQ [Ux, Ib]))

/-- An entry that exists without a selecting prefix only. -/
def onlyPlain (e : Entry) : Entry := bySelector e undefined undefined undefined

/-- An access to a segment's base: with F3, and in 64-bit mode. -/
def segmentBase (m : Mnemonic) : Entry :=
  bySelector undefined undefined (sel m [Ry] o64) undefined

/-- 0F AE: processor state with memory, fences with a register, segment bases with F3. -/
def groupAE : Entry :=
  byMod
    (byReg (onlyPlain (op FXSAVE [M])) (onlyPlain (op FXRSTOR [M])) (onlyPlain (op LDMXCSR [Md]))
      (onlyPlain (op STMXCSR [Md])) (onlyPlain (op XSAVE [M])) (onlyPlain (op XRSTOR [M]))
      (onlyPlain (op XSAVEOPT [M])) (onlyPlain (op CLFLUSH [Mb])))
    (byReg (segmentBase RDFSBASE) (segmentBase RDGSBASE) (segmentBase WRFSBASE)
      (segmentBase WRGSBASE) undefined (onlyPlain (op LFENCE)) (onlyPlain (op MFENCE))
      (onlyPlain (op SFENCE)))

/-- 0F BA: bit tests with an immediate index. -/
def groupBA : Entry :=
  byReg undefined undefined undefined undefined (op BT [Ev, Ib]) (op BTS [Ev, Ib])
    (op BTR [Ev, Ib]) (op BTC [Ev, Ib])

/-- 0F C7: compare and exchange in memory, random numbers in a register. -/
def groupC7 : Entry :=
  byMod
    (byReg undefined (op CMPXCHG8B [Mq]) undefined undefined undefined undefined undefined
      undefined)
    (byReg undefined undefined undefined undefined undefined undefined (op RDRAND [Rv])
      (op RDSEED [Rv]))

/-! ## The map -/

def twoByteMap : List Entry :=
  -- 00
  [group00, group01, op LAR [Gv, Ewv], op LSL [Gv, Ewv], undefined, op SYSCALL, op CLTS,
   op SYSRET] ++
  -- 08
  [op INVD, op WBINVD, undefined, op UD2, undefined, group0D, undefined, undefined] ++
  -- 10
  [bySelector (op MOVUPS [Vx, Wx]) (sel MOVUPD [Vx, Wx]) (sel MOVSS [Vx, Wd])
     (sel MOVSD [Vx, Wq]),
   bySelector (op MOVUPS [Wx, Vx]) (sel MOVUPD [Wx, Vx]) (sel MOVSS [Wd, Vx])
     (sel MOVSD [Wq, Vx]),
   group12, packed MOVLPS MOVLPD [Mq, Vx], packed UNPCKLPS UNPCKLPD [Vx, Wx],
   packed UNPCKHPS UNPCKHPD [Vx, Wx], group16, packed MOVHPS MOVHPD [Mq, Vx]] ++
  -- 18
  [group18, op NOP [Ev], op NOP [Ev], op NOP [Ev], op NOP [Ev], op NOP [Ev], group1E,
   op NOP [Ev]] ++
  -- 20
  [op MOV [Rv, Cq] f64, op MOV [Rv, Dq] f64, op MOV [Cq, Rv] f64, op MOV [Dq, Rv] f64, undefined,
   undefined, undefined, undefined] ++
  -- 28
  [packed MOVAPS MOVAPD [Vx, Wx], packed MOVAPS MOVAPD [Wx, Vx],
   bySelector (op CVTPI2PS [Vx, Qq]) (sel CVTPI2PD [Vx, Qq]) (sel CVTSI2SS [Vx, Ey])
     (sel CVTSI2SD [Vx, Ey]),
   packed MOVNTPS MOVNTPD [Mdq, Vx],
   bySelector (op CVTTPS2PI [Pq, Wq]) (sel CVTTPD2PI [Pq, Wx]) (sel CVTTSS2SI [Gy, Wd])
     (sel CVTTSD2SI [Gy, Wq]),
   bySelector (op CVTPS2PI [Pq, Wq]) (sel CVTPD2PI [Pq, Wx]) (sel CVTSS2SI [Gy, Wd])
     (sel CVTSD2SI [Gy, Wq]),
   plainOr66 (op UCOMISS [Vx, Wd]) (sel UCOMISD [Vx, Wq]),
   plainOr66 (op COMISS [Vx, Wd]) (sel COMISD [Vx, Wq])] ++
  -- 30
  [op WRMSR, op RDTSC, op RDMSR, op RDPMC, op SYSENTER, op SYSEXIT, undefined, op GETSEC] ++
  -- 38
  List.replicate 8 undefined ++
  -- 40 and 48
  [CMOVO, CMOVNO, CMOVB, CMOVAE, CMOVE, CMOVNE, CMOVBE, CMOVA, CMOVS, CMOVNS, CMOVP, CMOVNP,
    CMOVL, CMOVGE, CMOVLE, CMOVG].map (op · [Gv, Ev]) ++
  -- 50
  [packed MOVMSKPS MOVMSKPD [Gd, Ux], sse SQRTPS SQRTPD SQRTSS SQRTSD,
   bySelector (op RSQRTPS [Vx, Wx]) undefined (sel RSQRTSS [Vx, Wd]) undefined,
   bySelector (op RCPPS [Vx, Wx]) undefined (sel RCPSS [Vx, Wd]) undefined,
   packed ANDPS ANDPD [Vx, Wx], packed ANDNPS ANDNPD [Vx, Wx], packed ORPS ORPD [Vx, Wx],
   packed XORPS XORPD [Vx, Wx]] ++
  -- 58
  [sse ADDPS ADDPD ADDSS ADDSD, sse MULPS MULPD MULSS MULSD,
   bySelector (op CVTPS2PD [Vx, Wq]) (sel CVTPD2PS [Vx, Wx]) (sel CVTSS2SD [Vx, Wd])
     (sel CVTSD2SS [Vx, Wq]),
   bySelector (op CVTDQ2PS [Vx, Wx]) (sel CVTPS2DQ [Vx, Wx]) (sel CVTTPS2DQ [Vx, Wx]) undefined,
   sse SUBPS SUBPD SUBSS SUBSD, sse MINPS MINPD MINSS MINSD, sse DIVPS DIVPD DIVSS DIVSD,
   sse MAXPS MAXPD MAXSS MAXSD] ++
  -- 60
  [mmx PUNPCKLBW Qd, mmx PUNPCKLWD Qd, mmx PUNPCKLDQ Qd, mmx PACKSSWB, mmx PCMPGTB, mmx PCMPGTW,
   mmx PCMPGTD, mmx PACKUSWB] ++
  -- 68
  [mmx PUNPCKHBW, mmx PUNPCKHWD, mmx PUNPCKHDQ, mmx PACKSSDW, only66 PUNPCKLQDQ [Vx, Wx],
   only66 PUNPCKHQDQ [Vx, Wx], plainOr66 (op MOVD [Pq, Ey]) (sel MOVD [Vx, Ey]),
   bySelector (op MOVQ [Pq, Qq]) (sel MOVDQA [Vx, Wx]) (sel MOVDQU [Vx, Wx]) undefined] ++
  -- 70
  [bySelector (op PSHUFW [Pq, Qq, Ib]) (sel PSHUFD [Vx, Wx, Ib]) (sel PSHUFHW [Vx, Wx, Ib])
     (sel PSHUFLW [Vx, Wx, Ib]),
   group71, group72, group73, mmx PCMPEQB, mmx PCMPEQW, mmx PCMPEQD, op EMMS] ++
  -- 78
  [undefined, undefined, undefined, undefined,
   bySelector undefined (sel HADDPD [Vx, Wx]) undefined (sel HADDPS [Vx, Wx]),
   bySelector undefined (sel HSUBPD [Vx, Wx]) undefined (sel HSUBPS [Vx, Wx]),
   bySelector (op MOVD [Ey, Pq]) (sel MOVD [Ey, Vx]) (sel MOVQ [Vx, Wq]) undefined,
   bySelector (op MOVQ [Qq, Pq]) (sel MOVDQA [Wx, Vx]) (sel MOVDQU [Wx, Vx]) undefined] ++
  -- 80 and 88
  [JO, JNO, JB, JAE, JE, JNE, JBE, JA, JS, JNS, JP, JNP, JL, JGE, JLE, JG].map (op · [Jz] f64) ++
  -- 90 and 98
  [SETO, SETNO, SETB, SETAE, SETE, SETNE, SETBE, SETA, SETS, SETNS, SETP, SETNP, SETL, SETGE,
    SETLE, SETG].map (op · [Eb]) ++
  -- A0
  [op PUSH [sFS] d64, op POP [sFS] d64, op CPUID, op BT [Ev, Gv], op SHLD [Ev, Gv, Ib],
   op SHLD [Ev, Gv, CL], undefined, undefined] ++
  -- A8
  [op PUSH [sGS] d64, op POP [sGS] d64, op RSM, op BTS [Ev, Gv], op SHRD [Ev, Gv, Ib],
   op SHRD [Ev, Gv, CL], groupAE, op IMUL [Gv, Ev]] ++
  -- B0
  [op CMPXCHG [Eb, Gb], op CMPXCHG [Ev, Gv], op LSS [Gv, Mp], op BTR [Ev, Gv], op LFS [Gv, Mp],
   op LGS [Gv, Mp], op MOVZX [Gv, Eb], op MOVZX [Gv, Ew]] ++
  -- B8
  [bySelector undefined undefined (sel POPCNT [Gv, Ev]) undefined, op UD1 [Gv, Ev], groupBA,
   op BTC [Ev, Gv],
   bySelector (op BSF [Gv, Ev]) (op BSF [Gv, Ev]) (sel TZCNT [Gv, Ev]) (op BSF [Gv, Ev]),
   bySelector (op BSR [Gv, Ev]) (op BSR [Gv, Ev]) (sel LZCNT [Gv, Ev]) (op BSR [Gv, Ev]),
   op MOVSX [Gv, Eb], op MOVSX [Gv, Ew]] ++
  -- C0
  [op XADD [Eb, Gb], op XADD [Ev, Gv],
   bySelector (op CMPPS [Vx, Wx, Ib]) (sel CMPPD [Vx, Wx, Ib]) (sel CMPSS [Vx, Wd, Ib])
     (sel CMPSD [Vx, Wq, Ib]),
   bySelector (op MOVNTI [My, Gy]) undefined undefined undefined,
   plainOr66 (op PINSRW [Pq, Ewd, Ib]) (sel PINSRW [Vx, Ewd, Ib]),
   plainOr66 (op PEXTRW [Gd, Nq, Ib]) (sel PEXTRW [Gd, Ux, Ib]),
   packed SHUFPS SHUFPD [Vx, Wx, Ib], groupC7] ++
  -- C8
  List.replicate 8 (op BSWAP [Zy]) ++
  -- D0
  [bySelector undefined (sel ADDSUBPD [Vx, Wx]) undefined (sel ADDSUBPS [Vx, Wx]), mmx PSRLW,
   mmx PSRLD, mmx PSRLQ, mmx PADDQ, mmx PMULLW,
   bySelector undefined (sel MOVQ [Wq, Vx]) (sel MOVQ2DQ [Vx, Nq]) (sel MOVDQ2Q [Pq, Ux]),
   plainOr66 (op PMOVMSKB [Gd, Nq]) (sel PMOVMSKB [Gd, Ux])] ++
  -- D8
  [mmx PSUBUSB, mmx PSUBUSW, mmx PMINUB, mmx PAND, mmx PADDUSB, mmx PADDUSW, mmx PMAXUB,
   mmx PANDN] ++
  -- E0
  [mmx PAVGB, mmx PSRAW, mmx PSRAD, mmx PAVGW, mmx PMULHUW, mmx PMULHW,
   bySelector undefined (sel CVTTPD2DQ [Vx, Wx]) (sel CVTDQ2PD [Vx, Wq]) (sel CVTPD2DQ [Vx, Wx]),
   plainOr66 (op MOVNTQ [Mq, Pq]) (sel MOVNTDQ [Mdq, Vx])] ++
  -- E8
  [mmx PSUBSB, mmx PSUBSW, mmx PMINSW, mmx POR, mmx PADDSB, mmx PADDSW, mmx PMAXSW, mmx PXOR] ++
  -- F0
  [bySelector undefined undefined undefined (sel LDDQU [Vx, Mdq]), mmx PSLLW, mmx PSLLD,
   mmx PSLLQ, mmx PMULUDQ, mmx PMADDWD, mmx PSADBW,
   plainOr66 (op MASKMOVQ [Pq, Nq]) (sel MASKMOVDQU [Vx, Ux])] ++
  -- F8
  [mmx PSUBB, mmx PSUBW, mmx PSUBD, mmx PSUBQ, mmx PADDB, mmx PADDW, mmx PADDD, undefined]

/-- Every opcode has its place. -/
theorem length_twoByteMap : twoByteMap.length = 256 := by decide +kernel

end Disasm.OpcodeMap

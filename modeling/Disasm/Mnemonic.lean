/-!
# Mnemonics

The name of every instruction form that the opcode maps hold, in the order in which their
numbers run: general-purpose first, then the x87 coprocessor, then MMX and SSE. Families that an
opcode's low bits select (conditional jumps, moves and sets) run in encoding order.
-/

namespace Disasm

/-- What an instruction does. `INVALID` marks bytes that form no instruction. -/
inductive Mnemonic
  | INVALID
  -- General purpose.
  | AAA | AAD | AAM | AAS | ADC | ADD | AND | ARPL | BOUND | BSF | BSR | BSWAP | BT | BTC | BTR
  | BTS | CALL | CALLF | CBW | CWDE | CDQE | CWD | CDQ | CQO | CLC | CLD | CLI | CLTS | CMC
  | CMOVO | CMOVNO | CMOVB | CMOVAE | CMOVE | CMOVNE | CMOVBE | CMOVA | CMOVS | CMOVNS | CMOVP
  | CMOVNP | CMOVL | CMOVGE | CMOVLE | CMOVG | CMP | CMPSB | CMPSW | CMPSD | CMPSQ | CMPXCHG
  | CMPXCHG8B | CMPXCHG16B | CPUID | DAA | DAS | DEC | DIV | ENTER | HLT | IDIV | IMUL | IN | INC
  | INSB | INSW | INSD | INT | INT1 | INT3 | INTO | INVD | INVLPG | IRET | IRETD | IRETQ | JO
  | JNO | JB | JAE | JE | JNE | JBE | JA | JS | JNS | JP | JNP | JL | JGE | JLE | JG | JCXZ
  | JECXZ | JRCXZ | JMP | JMPF | LAHF | LAR | LDS | LEA | LEAVE | LES | LFS | LGDT | LGS | LIDT
  | LLDT | LMSW | LODSB | LODSW | LODSD | LODSQ | LOOP | LOOPE | LOOPNE | LSL | LSS | LTR | MOV
  | MOVSB | MOVSW | MOVSD | MOVSQ | MOVSX | MOVSXD | MOVZX | MUL | NEG | NOP | NOT | OR | OUT
  | OUTSB | OUTSW | OUTSD | PAUSE | POP | POPA | POPAD | POPF | POPFD | POPFQ | PUSH | PUSHA
  | PUSHAD | PUSHF | PUSHFD | PUSHFQ | RCL | RCR | RDMSR | RDPMC | RDTSC | RDTSCP | RET | RETF
  | ROL | ROR | RSM | SAHF | SAL | SAR | SBB | SCASB | SCASW | SCASD | SCASQ | SETO | SETNO | SETB
  | SETAE | SETE | SETNE | SETBE | SETA | SETS | SETNS | SETP | SETNP | SETL | SETGE | SETLE
  | SETG | SGDT | SHL | SHLD | SHR | SHRD | SIDT | SLDT | SMSW | STC | STD | STI | STOSB | STOSW
  | STOSD | STOSQ | STR | SUB | SWAPGS | SYSCALL | SYSENTER | SYSEXIT | SYSRET | TEST | UD1 | UD2
  | VERR | VERW | WAIT | WBINVD | WRMSR | XADD | XCHG | XLATB | XOR
  -- Later general-purpose and system extensions.
  | POPCNT | LZCNT | TZCNT | MOVBE | CRC32 | RDRAND | RDSEED | RDFSBASE | RDGSBASE | WRFSBASE
  | WRGSBASE | ENDBR32 | ENDBR64 | XGETBV | XSETBV | MONITOR | MWAIT | CLAC | STAC | VMCALL
  | VMLAUNCH | VMRESUME | VMXOFF | GETSEC | FXSAVE | FXRSTOR | LDMXCSR | STMXCSR | XSAVE | XRSTOR
  | XSAVEOPT | CLFLUSH | LFENCE | MFENCE | SFENCE | PREFETCHNTA | PREFETCHT0 | PREFETCHT1
  | PREFETCHT2 | PREFETCH | PREFETCHW
  -- x87.
  | F2XM1 | FABS | FADD | FADDP | FBLD | FBSTP | FCHS | FCMOVB | FCMOVE | FCMOVBE | FCMOVU
  | FCMOVNB | FCMOVNE | FCMOVNBE | FCMOVNU | FCOM | FCOMP | FCOMPP | FCOMI | FCOMIP | FCOS
  | FDECSTP | FDIV | FDIVP | FDIVR | FDIVRP | FFREE | FIADD | FICOM | FICOMP | FIDIV | FIDIVR
  | FILD | FIMUL | FINCSTP | FIST | FISTP | FISTTP | FISUB | FISUBR | FLD | FLD1 | FLDCW | FLDENV
  | FLDL2E | FLDL2T | FLDLG2 | FLDLN2 | FLDPI | FLDZ | FMUL | FMULP | FNCLEX | FNINIT | FNOP
  | FNSAVE | FNSTCW | FNSTENV | FNSTSW | FPATAN | FPREM | FPREM1 | FPTAN | FRNDINT | FRSTOR
  | FSCALE | FSIN | FSINCOS | FSQRT | FST | FSTP | FSUB | FSUBP | FSUBR | FSUBRP | FTST | FUCOM
  | FUCOMI | FUCOMIP | FUCOMP | FUCOMPP | FXAM | FXCH | FXTRACT | FYL2X | FYL2XP1
  -- MMX and SSE2 integer.
  | EMMS | MOVD | MOVQ | PACKSSWB | PACKSSDW | PACKUSWB | PADDB | PADDW | PADDD | PADDQ | PADDSB
  | PADDSW | PADDUSB | PADDUSW | PAND | PANDN | PAVGB | PAVGW | PCMPEQB | PCMPEQW | PCMPEQD
  | PCMPGTB | PCMPGTW | PCMPGTD | PEXTRW | PINSRW | PMADDWD | PMAXSW | PMAXUB | PMINSW | PMINUB
  | PMOVMSKB | PMULHUW | PMULHW | PMULLW | PMULUDQ | POR | PSADBW | PSHUFW | PSHUFD | PSHUFHW
  | PSHUFLW | PSLLW | PSLLD | PSLLQ | PSLLDQ | PSRAW | PSRAD | PSRLW | PSRLD | PSRLQ | PSRLDQ
  | PSUBB | PSUBW | PSUBD | PSUBQ | PSUBSB | PSUBSW | PSUBUSB | PSUBUSW | PUNPCKHBW | PUNPCKHWD
  | PUNPCKHDQ | PUNPCKHQDQ | PUNPCKLBW | PUNPCKLWD | PUNPCKLDQ | PUNPCKLQDQ | PXOR | MASKMOVQ
  | MASKMOVDQU | MOVNTQ | MOVNTDQ | MOVNTI | MOVDQA | MOVDQU | MOVQ2DQ | MOVDQ2Q
  -- SSE, SSE2 and SSE3 floating point.
  | ADDPS | ADDPD | ADDSS | ADDSD | ADDSUBPS | ADDSUBPD | ANDPS | ANDPD | ANDNPS | ANDNPD | CMPPS
  | CMPPD | CMPSS | COMISS | COMISD | CVTDQ2PD | CVTDQ2PS | CVTPD2DQ | CVTPD2PI | CVTPD2PS
  | CVTPI2PD | CVTPI2PS | CVTPS2DQ | CVTPS2PD | CVTPS2PI | CVTSD2SI | CVTSD2SS | CVTSI2SD
  | CVTSI2SS | CVTSS2SD | CVTSS2SI | CVTTPD2DQ | CVTTPD2PI | CVTTPS2DQ | CVTTPS2PI | CVTTSD2SI
  | CVTTSS2SI | DIVPS | DIVPD | DIVSS | DIVSD | HADDPS | HADDPD | HSUBPS | HSUBPD | LDDQU | MAXPS
  | MAXPD | MAXSS | MAXSD | MINPS | MINPD | MINSS | MINSD | MOVAPS | MOVAPD | MOVDDUP | MOVHLPS
  | MOVHPS | MOVHPD | MOVLHPS | MOVLPS | MOVLPD | MOVMSKPS | MOVMSKPD | MOVNTPS | MOVNTPD
  | MOVSHDUP | MOVSLDUP | MOVSS | MOVUPS | MOVUPD | MULPS | MULPD | MULSS | MULSD | ORPS | ORPD
  | RCPPS | RCPSS | RSQRTPS | RSQRTSS | SHUFPS | SHUFPD | SQRTPS | SQRTPD | SQRTSS | SQRTSD
  | SUBPS | SUBPD | SUBSS | SUBSD | UCOMISS | UCOMISD | UNPCKHPS | UNPCKHPD | UNPCKLPS | UNPCKLPD
  | XORPS | XORPD
  -- SSSE3.
  | PSHUFB | PHADDW | PHADDD | PHADDSW | PMADDUBSW | PHSUBW | PHSUBD | PHSUBSW | PSIGNB | PSIGNW
  | PSIGND | PMULHRSW | PABSB | PABSW | PABSD | PALIGNR
  -- SSE4.1 and SSE4.2.
  | PBLENDVB | BLENDVPS | BLENDVPD | PTEST | PMOVSXBW | PMOVSXBD | PMOVSXBQ | PMOVSXWD | PMOVSXWQ
  | PMOVSXDQ | PMOVZXBW | PMOVZXBD | PMOVZXBQ | PMOVZXWD | PMOVZXWQ | PMOVZXDQ | PMULDQ | PCMPEQQ
  | MOVNTDQA | PACKUSDW | PCMPGTQ | PMINSB | PMINSD | PMINUW | PMINUD | PMAXSB | PMAXSD | PMAXUW
  | PMAXUD | PMULLD | PHMINPOSUW | ROUNDPS | ROUNDPD | ROUNDSS | ROUNDSD | BLENDPS | BLENDPD
  | PBLENDW | PEXTRB | PEXTRD | PEXTRQ | EXTRACTPS | PINSRB | INSERTPS | PINSRD | PINSRQ | DPPS
  | DPPD | MPSADBW | PCMPESTRM | PCMPESTRI | PCMPISTRM | PCMPISTRI
  -- AES and carry-less multiplication.
  | AESIMC | AESENC | AESENCLAST | AESDEC | AESDECLAST | AESKEYGENASSIST | PCLMULQDQ
deriving DecidableEq, Inhabited

namespace Mnemonic

/-- The place of a mnemonic in the order of declaration. -/
def number (m : Mnemonic) : Nat := m.ctorIdx

/-- How many mnemonics there are, `INVALID` among them. -/
def count : Nat := 600

/-- The mnemonic with this number. -/
def ofNumber? (n : Nat) : Option Mnemonic := if n < count then some (ofNat n) else none

/-- Every mnemonic in order. -/
def all : List Mnemonic := (List.range count).map ofNat

/-- The name of a mnemonic as both syntaxes print it. -/
def name : Mnemonic → String
  | INVALID => "invalid" | AAA => "aaa" | AAD => "aad" | AAM => "aam" | AAS => "aas" | ADC => "adc"
  | ADD => "add" | AND => "and" | ARPL => "arpl" | BOUND => "bound" | BSF => "bsf" | BSR => "bsr"
  | BSWAP => "bswap" | BT => "bt" | BTC => "btc" | BTR => "btr" | BTS => "bts" | CALL => "call"
  | CALLF => "callf" | CBW => "cbw" | CWDE => "cwde" | CDQE => "cdqe" | CWD => "cwd" | CDQ => "cdq"
  | CQO => "cqo" | CLC => "clc" | CLD => "cld" | CLI => "cli" | CLTS => "clts" | CMC => "cmc"
  | CMOVO => "cmovo" | CMOVNO => "cmovno" | CMOVB => "cmovb" | CMOVAE => "cmovae"
  | CMOVE => "cmove" | CMOVNE => "cmovne" | CMOVBE => "cmovbe" | CMOVA => "cmova"
  | CMOVS => "cmovs" | CMOVNS => "cmovns" | CMOVP => "cmovp" | CMOVNP => "cmovnp"
  | CMOVL => "cmovl" | CMOVGE => "cmovge" | CMOVLE => "cmovle" | CMOVG => "cmovg" | CMP => "cmp"
  | CMPSB => "cmpsb" | CMPSW => "cmpsw" | CMPSD => "cmpsd" | CMPSQ => "cmpsq"
  | CMPXCHG => "cmpxchg" | CMPXCHG8B => "cmpxchg8b" | CMPXCHG16B => "cmpxchg16b" | CPUID => "cpuid"
  | DAA => "daa" | DAS => "das" | DEC => "dec" | DIV => "div" | ENTER => "enter" | HLT => "hlt"
  | IDIV => "idiv" | IMUL => "imul" | IN => "in" | INC => "inc" | INSB => "insb" | INSW => "insw"
  | INSD => "insd" | INT => "int" | INT1 => "int1" | INT3 => "int3" | INTO => "into"
  | INVD => "invd" | INVLPG => "invlpg" | IRET => "iret" | IRETD => "iretd" | IRETQ => "iretq"
  | JO => "jo" | JNO => "jno" | JB => "jb" | JAE => "jae" | JE => "je" | JNE => "jne"
  | JBE => "jbe" | JA => "ja" | JS => "js" | JNS => "jns" | JP => "jp" | JNP => "jnp" | JL => "jl"
  | JGE => "jge" | JLE => "jle" | JG => "jg" | JCXZ => "jcxz" | JECXZ => "jecxz" | JRCXZ => "jrcxz"
  | JMP => "jmp" | JMPF => "jmpf" | LAHF => "lahf" | LAR => "lar" | LDS => "lds" | LEA => "lea"
  | LEAVE => "leave" | LES => "les" | LFS => "lfs" | LGDT => "lgdt" | LGS => "lgs" | LIDT => "lidt"
  | LLDT => "lldt" | LMSW => "lmsw" | LODSB => "lodsb" | LODSW => "lodsw" | LODSD => "lodsd"
  | LODSQ => "lodsq" | LOOP => "loop" | LOOPE => "loope" | LOOPNE => "loopne" | LSL => "lsl"
  | LSS => "lss" | LTR => "ltr" | MOV => "mov" | MOVSB => "movsb" | MOVSW => "movsw"
  | MOVSD => "movsd" | MOVSQ => "movsq" | MOVSX => "movsx" | MOVSXD => "movsxd" | MOVZX => "movzx"
  | MUL => "mul" | NEG => "neg" | NOP => "nop" | NOT => "not" | OR => "or" | OUT => "out"
  | OUTSB => "outsb" | OUTSW => "outsw" | OUTSD => "outsd" | PAUSE => "pause" | POP => "pop"
  | POPA => "popa" | POPAD => "popad" | POPF => "popf" | POPFD => "popfd" | POPFQ => "popfq"
  | PUSH => "push" | PUSHA => "pusha" | PUSHAD => "pushad" | PUSHF => "pushf" | PUSHFD => "pushfd"
  | PUSHFQ => "pushfq" | RCL => "rcl" | RCR => "rcr" | RDMSR => "rdmsr" | RDPMC => "rdpmc"
  | RDTSC => "rdtsc" | RDTSCP => "rdtscp" | RET => "ret" | RETF => "retf" | ROL => "rol"
  | ROR => "ror" | RSM => "rsm" | SAHF => "sahf" | SAL => "sal" | SAR => "sar" | SBB => "sbb"
  | SCASB => "scasb" | SCASW => "scasw" | SCASD => "scasd" | SCASQ => "scasq" | SETO => "seto"
  | SETNO => "setno" | SETB => "setb" | SETAE => "setae" | SETE => "sete" | SETNE => "setne"
  | SETBE => "setbe" | SETA => "seta" | SETS => "sets" | SETNS => "setns" | SETP => "setp"
  | SETNP => "setnp" | SETL => "setl" | SETGE => "setge" | SETLE => "setle" | SETG => "setg"
  | SGDT => "sgdt" | SHL => "shl" | SHLD => "shld" | SHR => "shr" | SHRD => "shrd" | SIDT => "sidt"
  | SLDT => "sldt" | SMSW => "smsw" | STC => "stc" | STD => "std" | STI => "sti" | STOSB => "stosb"
  | STOSW => "stosw" | STOSD => "stosd" | STOSQ => "stosq" | STR => "str" | SUB => "sub"
  | SWAPGS => "swapgs" | SYSCALL => "syscall" | SYSENTER => "sysenter" | SYSEXIT => "sysexit"
  | SYSRET => "sysret" | TEST => "test" | UD1 => "ud1" | UD2 => "ud2" | VERR => "verr"
  | VERW => "verw" | WAIT => "wait" | WBINVD => "wbinvd" | WRMSR => "wrmsr" | XADD => "xadd"
  | XCHG => "xchg" | XLATB => "xlatb" | XOR => "xor" | POPCNT => "popcnt" | LZCNT => "lzcnt"
  | TZCNT => "tzcnt" | MOVBE => "movbe" | CRC32 => "crc32" | RDRAND => "rdrand"
  | RDSEED => "rdseed" | RDFSBASE => "rdfsbase" | RDGSBASE => "rdgsbase" | WRFSBASE => "wrfsbase"
  | WRGSBASE => "wrgsbase" | ENDBR32 => "endbr32" | ENDBR64 => "endbr64" | XGETBV => "xgetbv"
  | XSETBV => "xsetbv" | MONITOR => "monitor" | MWAIT => "mwait" | CLAC => "clac" | STAC => "stac"
  | VMCALL => "vmcall" | VMLAUNCH => "vmlaunch" | VMRESUME => "vmresume" | VMXOFF => "vmxoff"
  | GETSEC => "getsec" | FXSAVE => "fxsave" | FXRSTOR => "fxrstor" | LDMXCSR => "ldmxcsr"
  | STMXCSR => "stmxcsr" | XSAVE => "xsave" | XRSTOR => "xrstor" | XSAVEOPT => "xsaveopt"
  | CLFLUSH => "clflush" | LFENCE => "lfence" | MFENCE => "mfence" | SFENCE => "sfence"
  | PREFETCHNTA => "prefetchnta" | PREFETCHT0 => "prefetcht0" | PREFETCHT1 => "prefetcht1"
  | PREFETCHT2 => "prefetcht2" | PREFETCH => "prefetch" | PREFETCHW => "prefetchw"
  | F2XM1 => "f2xm1" | FABS => "fabs" | FADD => "fadd" | FADDP => "faddp" | FBLD => "fbld"
  | FBSTP => "fbstp" | FCHS => "fchs" | FCMOVB => "fcmovb" | FCMOVE => "fcmove"
  | FCMOVBE => "fcmovbe" | FCMOVU => "fcmovu" | FCMOVNB => "fcmovnb" | FCMOVNE => "fcmovne"
  | FCMOVNBE => "fcmovnbe" | FCMOVNU => "fcmovnu" | FCOM => "fcom" | FCOMP => "fcomp"
  | FCOMPP => "fcompp" | FCOMI => "fcomi" | FCOMIP => "fcomip" | FCOS => "fcos"
  | FDECSTP => "fdecstp" | FDIV => "fdiv" | FDIVP => "fdivp" | FDIVR => "fdivr"
  | FDIVRP => "fdivrp" | FFREE => "ffree" | FIADD => "fiadd" | FICOM => "ficom"
  | FICOMP => "ficomp" | FIDIV => "fidiv" | FIDIVR => "fidivr" | FILD => "fild" | FIMUL => "fimul"
  | FINCSTP => "fincstp" | FIST => "fist" | FISTP => "fistp" | FISTTP => "fisttp"
  | FISUB => "fisub" | FISUBR => "fisubr" | FLD => "fld" | FLD1 => "fld1" | FLDCW => "fldcw"
  | FLDENV => "fldenv" | FLDL2E => "fldl2e" | FLDL2T => "fldl2t" | FLDLG2 => "fldlg2"
  | FLDLN2 => "fldln2" | FLDPI => "fldpi" | FLDZ => "fldz" | FMUL => "fmul" | FMULP => "fmulp"
  | FNCLEX => "fnclex" | FNINIT => "fninit" | FNOP => "fnop" | FNSAVE => "fnsave"
  | FNSTCW => "fnstcw" | FNSTENV => "fnstenv" | FNSTSW => "fnstsw" | FPATAN => "fpatan"
  | FPREM => "fprem" | FPREM1 => "fprem1" | FPTAN => "fptan" | FRNDINT => "frndint"
  | FRSTOR => "frstor" | FSCALE => "fscale" | FSIN => "fsin" | FSINCOS => "fsincos"
  | FSQRT => "fsqrt" | FST => "fst" | FSTP => "fstp" | FSUB => "fsub" | FSUBP => "fsubp"
  | FSUBR => "fsubr" | FSUBRP => "fsubrp" | FTST => "ftst" | FUCOM => "fucom" | FUCOMI => "fucomi"
  | FUCOMIP => "fucomip" | FUCOMP => "fucomp" | FUCOMPP => "fucompp" | FXAM => "fxam"
  | FXCH => "fxch" | FXTRACT => "fxtract" | FYL2X => "fyl2x" | FYL2XP1 => "fyl2xp1"
  | EMMS => "emms" | MOVD => "movd" | MOVQ => "movq" | PACKSSWB => "packsswb"
  | PACKSSDW => "packssdw" | PACKUSWB => "packuswb" | PADDB => "paddb" | PADDW => "paddw"
  | PADDD => "paddd" | PADDQ => "paddq" | PADDSB => "paddsb" | PADDSW => "paddsw"
  | PADDUSB => "paddusb" | PADDUSW => "paddusw" | PAND => "pand" | PANDN => "pandn"
  | PAVGB => "pavgb" | PAVGW => "pavgw" | PCMPEQB => "pcmpeqb" | PCMPEQW => "pcmpeqw"
  | PCMPEQD => "pcmpeqd" | PCMPGTB => "pcmpgtb" | PCMPGTW => "pcmpgtw" | PCMPGTD => "pcmpgtd"
  | PEXTRW => "pextrw" | PINSRW => "pinsrw" | PMADDWD => "pmaddwd" | PMAXSW => "pmaxsw"
  | PMAXUB => "pmaxub" | PMINSW => "pminsw" | PMINUB => "pminub" | PMOVMSKB => "pmovmskb"
  | PMULHUW => "pmulhuw" | PMULHW => "pmulhw" | PMULLW => "pmullw" | PMULUDQ => "pmuludq"
  | POR => "por" | PSADBW => "psadbw" | PSHUFW => "pshufw" | PSHUFD => "pshufd"
  | PSHUFHW => "pshufhw" | PSHUFLW => "pshuflw" | PSLLW => "psllw" | PSLLD => "pslld"
  | PSLLQ => "psllq" | PSLLDQ => "pslldq" | PSRAW => "psraw" | PSRAD => "psrad" | PSRLW => "psrlw"
  | PSRLD => "psrld" | PSRLQ => "psrlq" | PSRLDQ => "psrldq" | PSUBB => "psubb" | PSUBW => "psubw"
  | PSUBD => "psubd" | PSUBQ => "psubq" | PSUBSB => "psubsb" | PSUBSW => "psubsw"
  | PSUBUSB => "psubusb" | PSUBUSW => "psubusw" | PUNPCKHBW => "punpckhbw"
  | PUNPCKHWD => "punpckhwd" | PUNPCKHDQ => "punpckhdq" | PUNPCKHQDQ => "punpckhqdq"
  | PUNPCKLBW => "punpcklbw" | PUNPCKLWD => "punpcklwd" | PUNPCKLDQ => "punpckldq"
  | PUNPCKLQDQ => "punpcklqdq" | PXOR => "pxor" | MASKMOVQ => "maskmovq"
  | MASKMOVDQU => "maskmovdqu" | MOVNTQ => "movntq" | MOVNTDQ => "movntdq" | MOVNTI => "movnti"
  | MOVDQA => "movdqa" | MOVDQU => "movdqu" | MOVQ2DQ => "movq2dq" | MOVDQ2Q => "movdq2q"
  | ADDPS => "addps" | ADDPD => "addpd" | ADDSS => "addss" | ADDSD => "addsd"
  | ADDSUBPS => "addsubps" | ADDSUBPD => "addsubpd" | ANDPS => "andps" | ANDPD => "andpd"
  | ANDNPS => "andnps" | ANDNPD => "andnpd" | CMPPS => "cmpps" | CMPPD => "cmppd"
  | CMPSS => "cmpss" | COMISS => "comiss" | COMISD => "comisd" | CVTDQ2PD => "cvtdq2pd"
  | CVTDQ2PS => "cvtdq2ps" | CVTPD2DQ => "cvtpd2dq" | CVTPD2PI => "cvtpd2pi"
  | CVTPD2PS => "cvtpd2ps" | CVTPI2PD => "cvtpi2pd" | CVTPI2PS => "cvtpi2ps"
  | CVTPS2DQ => "cvtps2dq" | CVTPS2PD => "cvtps2pd" | CVTPS2PI => "cvtps2pi"
  | CVTSD2SI => "cvtsd2si" | CVTSD2SS => "cvtsd2ss" | CVTSI2SD => "cvtsi2sd"
  | CVTSI2SS => "cvtsi2ss" | CVTSS2SD => "cvtss2sd" | CVTSS2SI => "cvtss2si"
  | CVTTPD2DQ => "cvttpd2dq" | CVTTPD2PI => "cvttpd2pi" | CVTTPS2DQ => "cvttps2dq"
  | CVTTPS2PI => "cvttps2pi" | CVTTSD2SI => "cvttsd2si" | CVTTSS2SI => "cvttss2si"
  | DIVPS => "divps" | DIVPD => "divpd" | DIVSS => "divss" | DIVSD => "divsd" | HADDPS => "haddps"
  | HADDPD => "haddpd" | HSUBPS => "hsubps" | HSUBPD => "hsubpd" | LDDQU => "lddqu"
  | MAXPS => "maxps" | MAXPD => "maxpd" | MAXSS => "maxss" | MAXSD => "maxsd" | MINPS => "minps"
  | MINPD => "minpd" | MINSS => "minss" | MINSD => "minsd" | MOVAPS => "movaps"
  | MOVAPD => "movapd" | MOVDDUP => "movddup" | MOVHLPS => "movhlps" | MOVHPS => "movhps"
  | MOVHPD => "movhpd" | MOVLHPS => "movlhps" | MOVLPS => "movlps" | MOVLPD => "movlpd"
  | MOVMSKPS => "movmskps" | MOVMSKPD => "movmskpd" | MOVNTPS => "movntps" | MOVNTPD => "movntpd"
  | MOVSHDUP => "movshdup" | MOVSLDUP => "movsldup" | MOVSS => "movss" | MOVUPS => "movups"
  | MOVUPD => "movupd" | MULPS => "mulps" | MULPD => "mulpd" | MULSS => "mulss" | MULSD => "mulsd"
  | ORPS => "orps" | ORPD => "orpd" | RCPPS => "rcpps" | RCPSS => "rcpss" | RSQRTPS => "rsqrtps"
  | RSQRTSS => "rsqrtss" | SHUFPS => "shufps" | SHUFPD => "shufpd" | SQRTPS => "sqrtps"
  | SQRTPD => "sqrtpd" | SQRTSS => "sqrtss" | SQRTSD => "sqrtsd" | SUBPS => "subps"
  | SUBPD => "subpd" | SUBSS => "subss" | SUBSD => "subsd" | UCOMISS => "ucomiss"
  | UCOMISD => "ucomisd" | UNPCKHPS => "unpckhps" | UNPCKHPD => "unpckhpd" | UNPCKLPS => "unpcklps"
  | UNPCKLPD => "unpcklpd" | XORPS => "xorps" | XORPD => "xorpd" | PSHUFB => "pshufb"
  | PHADDW => "phaddw" | PHADDD => "phaddd" | PHADDSW => "phaddsw" | PMADDUBSW => "pmaddubsw"
  | PHSUBW => "phsubw" | PHSUBD => "phsubd" | PHSUBSW => "phsubsw" | PSIGNB => "psignb"
  | PSIGNW => "psignw" | PSIGND => "psignd" | PMULHRSW => "pmulhrsw" | PABSB => "pabsb"
  | PABSW => "pabsw" | PABSD => "pabsd" | PALIGNR => "palignr" | PBLENDVB => "pblendvb"
  | BLENDVPS => "blendvps" | BLENDVPD => "blendvpd" | PTEST => "ptest" | PMOVSXBW => "pmovsxbw"
  | PMOVSXBD => "pmovsxbd" | PMOVSXBQ => "pmovsxbq" | PMOVSXWD => "pmovsxwd"
  | PMOVSXWQ => "pmovsxwq" | PMOVSXDQ => "pmovsxdq" | PMOVZXBW => "pmovzxbw"
  | PMOVZXBD => "pmovzxbd" | PMOVZXBQ => "pmovzxbq" | PMOVZXWD => "pmovzxwd"
  | PMOVZXWQ => "pmovzxwq" | PMOVZXDQ => "pmovzxdq" | PMULDQ => "pmuldq" | PCMPEQQ => "pcmpeqq"
  | MOVNTDQA => "movntdqa" | PACKUSDW => "packusdw" | PCMPGTQ => "pcmpgtq" | PMINSB => "pminsb"
  | PMINSD => "pminsd" | PMINUW => "pminuw" | PMINUD => "pminud" | PMAXSB => "pmaxsb"
  | PMAXSD => "pmaxsd" | PMAXUW => "pmaxuw" | PMAXUD => "pmaxud" | PMULLD => "pmulld"
  | PHMINPOSUW => "phminposuw" | ROUNDPS => "roundps" | ROUNDPD => "roundpd" | ROUNDSS => "roundss"
  | ROUNDSD => "roundsd" | BLENDPS => "blendps" | BLENDPD => "blendpd" | PBLENDW => "pblendw"
  | PEXTRB => "pextrb" | PEXTRD => "pextrd" | PEXTRQ => "pextrq" | EXTRACTPS => "extractps"
  | PINSRB => "pinsrb" | INSERTPS => "insertps" | PINSRD => "pinsrd" | PINSRQ => "pinsrq"
  | DPPS => "dpps" | DPPD => "dppd" | MPSADBW => "mpsadbw" | PCMPESTRM => "pcmpestrm"
  | PCMPESTRI => "pcmpestri" | PCMPISTRM => "pcmpistrm" | PCMPISTRI => "pcmpistri"
  | AESIMC => "aesimc" | AESENC => "aesenc" | AESENCLAST => "aesenclast" | AESDEC => "aesdec"
  | AESDECLAST => "aesdeclast" | AESKEYGENASSIST => "aeskeygenassist" | PCLMULQDQ => "pclmulqdq"

/-- The name of a mnemonic in capitals, as opcode maps write it. -/
def capitals (m : Mnemonic) : String := m.name.toUpper

/-! ## Families -/

/-- Near branches whose target follows the instruction pointer, and the near return. -/
def branches : List Mnemonic :=
  [JO, JNO, JB, JAE, JE, JNE, JBE, JA, JS, JNS, JP, JNP, JL, JGE, JLE, JG,
   JCXZ, JECXZ, JRCXZ, LOOP, LOOPE, LOOPNE, JMP, CALL, RET]

/-- String operations that share their name with nothing else. `MOVSD` and `CMPSD` also name
scalar SSE operations, which take operands where the string forms take none. -/
def strings : List Mnemonic :=
  [MOVSB, MOVSW, MOVSQ, CMPSB, CMPSW, CMPSQ, STOSB, STOSW, STOSD, STOSQ,
   LODSB, LODSW, LODSD, LODSQ, SCASB, SCASW, SCASD, SCASQ, INSB, INSW, INSD, OUTSB, OUTSW, OUTSD]

/-- String operations that stop on a comparison, so that F3 before them reads `repe`. -/
def stringComparisons : List Mnemonic :=
  [CMPSB, CMPSW, CMPSD, CMPSQ, SCASB, SCASW, SCASD, SCASQ]

/-- Rotations and shifts, whose count may stand in CL. -/
def shifts : List Mnemonic := [ROL, ROR, RCL, RCR, SHL, SHR, SAL, SAR, SHLD, SHRD]

/-- Jumps and calls that can take their target from a register or from memory. -/
def indirectBranches : List Mnemonic := [CALL, JMP, CALLF, JMPF]

def isBranch (m : Mnemonic) : Bool := branches.contains m

def isString (m : Mnemonic) : Bool := strings.contains m

/-- The coprocessor's instructions stand together in the order. -/
def isX87 (m : Mnemonic) : Bool := F2XM1.number ≤ m.number ∧ m.number ≤ FYL2XP1.number

/-- MMX and SSE instructions, which follow the coprocessor's. -/
def isVector (m : Mnemonic) : Bool := FYL2XP1.number < m.number

end Mnemonic

end Disasm

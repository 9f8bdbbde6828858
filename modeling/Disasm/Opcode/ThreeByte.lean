import Disasm.Opcode.Operands

/-!
# The three-byte opcode maps

The opcodes that follow 0F 38 and 0F 3A. Only a part of each map is in use, so they are lists of the
opcodes that have a form. Nearly all of them need 66; the older ones have an MMX form without it.
-/

namespace Disasm.OpcodeMap

open Mnemonic OperandSpec Entry

/-- The opcodes that follow 0F 38. For MOVBE and CRC32 at F0 and F1, 66 keeps its meaning as an
operand-size override. -/
def map38 : List (UInt8 × Entry) :=
  [(0x00, mmx PSHUFB), (0x01, mmx PHADDW), (0x02, mmx PHADDD), (0x03, mmx PHADDSW),
   (0x04, mmx PMADDUBSW), (0x05, mmx PHSUBW), (0x06, mmx PHSUBD), (0x07, mmx PHSUBSW),
   (0x08, mmx PSIGNB), (0x09, mmx PSIGNW), (0x0A, mmx PSIGND), (0x0B, mmx PMULHRSW),
   (0x10, only66 PBLENDVB [Vx, Wx, Xmm0]), (0x14, only66 BLENDVPS [Vx, Wx, Xmm0]),
   (0x15, only66 BLENDVPD [Vx, Wx, Xmm0]), (0x17, only66 PTEST [Vx, Wx]), (0x1C, mmx PABSB),
   (0x1D, mmx PABSW), (0x1E, mmx PABSD), (0x20, only66 PMOVSXBW [Vx, Wq]),
   (0x21, only66 PMOVSXBD [Vx, Wd]), (0x22, only66 PMOVSXBQ [Vx, Ww]),
   (0x23, only66 PMOVSXWD [Vx, Wq]), (0x24, only66 PMOVSXWQ [Vx, Wd]),
   (0x25, only66 PMOVSXDQ [Vx, Wq]), (0x28, only66 PMULDQ [Vx, Wx]),
   (0x29, only66 PCMPEQQ [Vx, Wx]), (0x2A, only66 MOVNTDQA [Vx, Mdq]),
   (0x2B, only66 PACKUSDW [Vx, Wx]), (0x30, only66 PMOVZXBW [Vx, Wq]),
   (0x31, only66 PMOVZXBD [Vx, Wd]), (0x32, only66 PMOVZXBQ [Vx, Ww]),
   (0x33, only66 PMOVZXWD [Vx, Wq]), (0x34, only66 PMOVZXWQ [Vx, Wd]),
   (0x35, only66 PMOVZXDQ [Vx, Wq]), (0x37, only66 PCMPGTQ [Vx, Wx]),
   (0x38, only66 PMINSB [Vx, Wx]), (0x39, only66 PMINSD [Vx, Wx]),
   (0x3A, only66 PMINUW [Vx, Wx]), (0x3B, only66 PMINUD [Vx, Wx]),
   (0x3C, only66 PMAXSB [Vx, Wx]), (0x3D, only66 PMAXSD [Vx, Wx]),
   (0x3E, only66 PMAXUW [Vx, Wx]), (0x3F, only66 PMAXUD [Vx, Wx]),
   (0x40, only66 PMULLD [Vx, Wx]), (0x41, only66 PHMINPOSUW [Vx, Wx]),
   (0xDB, only66 AESIMC [Vx, Wx]), (0xDC, only66 AESENC [Vx, Wx]),
   (0xDD, only66 AESENCLAST [Vx, Wx]), (0xDE, only66 AESDEC [Vx, Wx]),
   (0xDF, only66 AESDECLAST [Vx, Wx]),
   (0xF0, bySelector (op MOVBE [Gv, Mv]) (op MOVBE [Gv, Mv]) undefined (sel CRC32 [Gy, Eb])),
   (0xF1, bySelector (op MOVBE [Mv, Gv]) (op MOVBE [Mv, Gv]) undefined (sel CRC32 [Gy, Ev]))]

/-- The opcodes that follow 0F 3A. -/
def map3A : List (UInt8 × Entry) :=
  [(0x08, only66 ROUNDPS [Vx, Wx, Ib]), (0x09, only66 ROUNDPD [Vx, Wx, Ib]),
   (0x0A, only66 ROUNDSS [Vx, Wd, Ib]), (0x0B, only66 ROUNDSD [Vx, Wq, Ib]),
   (0x0C, only66 BLENDPS [Vx, Wx, Ib]), (0x0D, only66 BLENDPD [Vx, Wx, Ib]),
   (0x0E, only66 PBLENDW [Vx, Wx, Ib]),
   (0x0F, plainOr66 (op PALIGNR [Pq, Qq, Ib]) (sel PALIGNR [Vx, Wx, Ib])),
   (0x14, only66 PEXTRB [Ebd, Vx, Ib]), (0x15, only66 PEXTRW [Ewd, Vx, Ib]),
   (0x16, only66 PEXTRD [Ey, Vx, Ib]), (0x17, only66 EXTRACTPS [Ed, Vx, Ib]),
   (0x20, only66 PINSRB [Vx, Ebd, Ib]), (0x21, only66 INSERTPS [Vx, Wd, Ib]),
   (0x22, only66 PINSRD [Vx, Ey, Ib]), (0x40, only66 DPPS [Vx, Wx, Ib]),
   (0x41, only66 DPPD [Vx, Wx, Ib]), (0x42, only66 MPSADBW [Vx, Wx, Ib]),
   (0x44, only66 PCLMULQDQ [Vx, Wx, Ib]), (0x60, only66 PCMPESTRM [Vx, Wx, Ib]),
   (0x61, only66 PCMPESTRI [Vx, Wx, Ib]), (0x62, only66 PCMPISTRM [Vx, Wx, Ib]),
   (0x63, only66 PCMPISTRI [Vx, Wx, Ib]), (0xDF, only66 AESKEYGENASSIST [Vx, Wx, Ib])]

end Disasm.OpcodeMap

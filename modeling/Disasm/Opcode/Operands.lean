import Disasm.Opcode.Form

/-!
# Operand letters

The operands that forms are written with, named as in the processor manuals' opcode maps: the
method's letter, then the type's. `AL` to `DX` and the names that start with `r`, `e` and `s` are
registers that a form names itself.
-/

namespace Disasm

namespace OperandSpec

def Eb : OperandSpec := ⟨.E, .b, 0⟩
def Ew : OperandSpec := ⟨.E, .w, 0⟩
def Ed : OperandSpec := ⟨.E, .d, 0⟩
def Ev : OperandSpec := ⟨.E, .v, 0⟩
def Ey : OperandSpec := ⟨.E, .y, 0⟩
def Ewv : OperandSpec := ⟨.E, .wv, 0⟩
def Ebd : OperandSpec := ⟨.E, .bd, 0⟩
def Ewd : OperandSpec := ⟨.E, .wd, 0⟩
def Gb : OperandSpec := ⟨.G, .b, 0⟩
def Gw : OperandSpec := ⟨.G, .w, 0⟩
def Gd : OperandSpec := ⟨.G, .d, 0⟩
def Gv : OperandSpec := ⟨.G, .v, 0⟩
def Gy : OperandSpec := ⟨.G, .y, 0⟩
def Gz : OperandSpec := ⟨.G, .z, 0⟩
def M : OperandSpec := ⟨.M, .m, 0⟩
def Mb : OperandSpec := ⟨.M, .b, 0⟩
def Md : OperandSpec := ⟨.M, .d, 0⟩
def Mq : OperandSpec := ⟨.M, .q, 0⟩
def Mdq : OperandSpec := ⟨.M, .dq, 0⟩
def Mp : OperandSpec := ⟨.M, .p, 0⟩
def Ma : OperandSpec := ⟨.M, .a, 0⟩
def Ms : OperandSpec := ⟨.M, .s, 0⟩
def My : OperandSpec := ⟨.M, .y, 0⟩
def Mw : OperandSpec := ⟨.M, .w, 0⟩
def Mt : OperandSpec := ⟨.M, .t, 0⟩
def Mv : OperandSpec := ⟨.M, .v, 0⟩
def Rv : OperandSpec := ⟨.R, .v, 0⟩
def Ry : OperandSpec := ⟨.R, .y, 0⟩
def Sw : OperandSpec := ⟨.S, .w, 0⟩
def Cq : OperandSpec := ⟨.C, .q, 0⟩
def Dq : OperandSpec := ⟨.D, .q, 0⟩
def Pq : OperandSpec := ⟨.P, .q, 0⟩
def Qq : OperandSpec := ⟨.Q, .q, 0⟩
def Qd : OperandSpec := ⟨.Q, .d, 0⟩
def Nq : OperandSpec := ⟨.N, .q, 0⟩
def Vx : OperandSpec := ⟨.V, .dq, 0⟩
def Wx : OperandSpec := ⟨.W, .dq, 0⟩
def Wq : OperandSpec := ⟨.W, .q, 0⟩
def Wd : OperandSpec := ⟨.W, .d, 0⟩
def Ww : OperandSpec := ⟨.W, .w, 0⟩
def Ux : OperandSpec := ⟨.U, .dq, 0⟩
def STi : OperandSpec := ⟨.X87, .t, 0⟩
def Ib : OperandSpec := ⟨.I, .b, 0⟩
def Ibs : OperandSpec := ⟨.I, .bs, 0⟩
def Iw : OperandSpec := ⟨.I, .w, 0⟩
def Iz : OperandSpec := ⟨.I, .z, 0⟩
def Iv : OperandSpec := ⟨.I, .v, 0⟩
def Jb : OperandSpec := ⟨.J, .b, 0⟩
def Jz : OperandSpec := ⟨.J, .z, 0⟩
def Ob : OperandSpec := ⟨.O, .b, 0⟩
def Ov : OperandSpec := ⟨.O, .v, 0⟩
def Ap : OperandSpec := ⟨.A, .p, 0⟩
def One : OperandSpec := ⟨.one, .b, 0⟩
def Zb : OperandSpec := ⟨.opcode, .b, 0⟩
def Zv : OperandSpec := ⟨.opcode, .v, 0⟩
def Zy : OperandSpec := ⟨.opcode, .y, 0⟩
def AL : OperandSpec := ⟨.fixed, .b, 0⟩
def CL : OperandSpec := ⟨.fixed, .b, 1⟩
def AX : OperandSpec := ⟨.fixed, .w, 0⟩
def DX : OperandSpec := ⟨.fixed, .w, 2⟩
def rAX : OperandSpec := ⟨.fixed, .v, 0⟩
def eAX : OperandSpec := ⟨.fixed, .z, 0⟩
def sES : OperandSpec := ⟨.fixedSegment, .w, 0⟩
def sCS : OperandSpec := ⟨.fixedSegment, .w, 1⟩
def sSS : OperandSpec := ⟨.fixedSegment, .w, 2⟩
def sDS : OperandSpec := ⟨.fixedSegment, .w, 3⟩
def sFS : OperandSpec := ⟨.fixedSegment, .w, 4⟩
def sGS : OperandSpec := ⟨.fixedSegment, .w, 5⟩
def ST0 : OperandSpec := ⟨.fixedX87, .t, 0⟩
def Xmm0 : OperandSpec := ⟨.fixedXMM, .dq, 0⟩

end OperandSpec

namespace FormFlags

/-- 64 bits by default in 64-bit mode. -/
def d64 : FormFlags where default64 := true

/-- Always 64 bits in 64-bit mode. -/
def f64 : FormFlags where force64 := true

/-- Not in 64-bit mode. -/
def i64 : FormFlags where invalid64 := true

/-- Only in 64-bit mode. -/
def o64 : FormFlags where only64 := true

end FormFlags

namespace Entry

open OperandSpec

/-- One form, whatever the selecting prefix. -/
def op (m : Mnemonic) (operands : List OperandSpec := []) (flags : FormFlags := {}) : Entry :=
  form ⟨m, operands, flags⟩

/-- One form, chosen by the selecting prefix. -/
def sel (m : Mnemonic) (operands : List OperandSpec := []) (flags : FormFlags := {}) : Entry :=
  form (Form.mk m operands flags).selected

/-- A form without a selecting prefix and one with 66. -/
def plainOr66 (plain with66 : Entry) : Entry := bySelector plain with66 undefined undefined

/-- A form that exists only with 66. -/
def only66 (m : Mnemonic) (operands : List OperandSpec) : Entry :=
  bySelector undefined (sel m operands) undefined undefined

/-- Operations on MMX registers that 66 moves to XMM registers. -/
def mmx (m : Mnemonic) (source : OperandSpec := Qq) : Entry :=
  plainOr66 (op m [Pq, source]) (sel m [Vx, Wx])

/-- Two packed forms: single precision, and double with 66. -/
def packed (ps pd : Mnemonic) (operands : List OperandSpec) : Entry :=
  plainOr66 (op ps operands) (sel pd operands)

/-- Packed and scalar forms in both precisions. -/
def sse (ps pd ss sd : Mnemonic) : Entry :=
  bySelector (op ps [Vx, Wx]) (sel pd [Vx, Wx]) (sel ss [Vx, Wd]) (sel sd [Vx, Wq])

end Entry

end Disasm

import Mips64.Instruction.Basic

/-! The instructions of the machine, in groups that share their operands. -/
namespace Mips64.Instruction

/-- Operands `rd, rs, rt`. -/
def threeRegisters : List (OperandKind × Field) :=
  [(.general, .rd), (.general, .rs), (.general, .rt)]

/-- Operands `rd, rt, rs`. -/
def variableShift : List (OperandKind × Field) :=
  [(.general, .rd), (.general, .rt), (.general, .rs)]

/-- Operands `rd, rt, sa`. -/
def fixedShift : List (OperandKind × Field) := [(.general, .rd), (.general, .rt), (.number5, .sa)]

/-- Operands `rt, rs, imm`. -/
def withImmediate : List (OperandKind × Field) :=
  [(.general, .rt), (.general, .rs), (.number16, .imm)]

/-- Operands `rt, imm(rs)`. -/
def memory : List (OperandKind × Field) := [(.general, .rt), (.offset, .imm), (.base, .rs)]

/-- Operands `rs, rt`. -/
def pair : List (OperandKind × Field) := [(.general, .rs), (.general, .rt)]

/-- Operands `rs, rt, target`. -/
def compareBranch : List (OperandKind × Field) :=
  [(.general, .rs), (.general, .rt), (.branch, .imm)]

/-- Operands `rs, target`. -/
def zeroBranch : List (OperandKind × Field) := [(.general, .rs), (.branch, .imm)]

/-- Operands `rt, rd`, where `rd` is a control register. -/
def controlMove : List (OperandKind × Field) := [(.general, .rt), (.control, .rd)]

def ofStrings (symbol description pseudocode : String) (base : Int)
    (operands : List (OperandKind × Field)) : Instruction :=
  ⟨symbol.toList, description, pseudocode, base, operands⟩

/-- Instructions without operands. -/
def otherInstructions : List Instruction :=
  [ofStrings "NOP" "No Operation" "None" 0x00000000 [],
   ofStrings "SYNC" "Synchronize Shared Memory" "Order loads and stores" 0x0000000F [],
   ofStrings "SYSCALL" "System Call" "SystemCallException" 0x0000000C [],
   ofStrings "BREAK" "Breakpoint" "BreakpointException" 0x0000000D [],
   ofStrings "ERET" "Exception Return" "PC=EPC; Restore Status" 0x42000018 []]

def memoryInstructions : List Instruction :=
  [ofStrings "LB" "Load Byte" "(rt)=SignExt(Mem8[(rs)+imm])" 0x80000000 memory,
   ofStrings "LBU" "Load Byte Unsigned" "(rt)=ZeroExt(Mem8[(rs)+imm])" 0x90000000 memory,
   ofStrings "LD" "Load Doubleword" "(rt)=Mem64[(rs)+imm]" 0xDC000000 memory,
   ofStrings "LDL" "Load Doubleword Left"
     "Merge Mem64[(rs)+imm] into (rt) high" 0x68000000 memory,
   ofStrings "LDR" "Load Doubleword Right"
     "Merge Mem64[(rs)+imm] into (rt) low" 0x6C000000 memory,
   ofStrings "LH" "Load Halfword" "(rt)=SignExt(Mem16[(rs)+imm])" 0x84000000 memory,
   ofStrings "LHU" "Load Halfword Unsigned" "(rt)=ZeroExt(Mem16[(rs)+imm])" 0x94000000 memory,
   ofStrings "LL" "Load Linked Word" "(rt)=Mem32[(rs)+imm]; LLbit=1" 0xC0000000 memory,
   ofStrings "LLD" "Load Linked Doubleword" "(rt)=Mem64[(rs)+imm]; LLbit=1" 0xD0000000 memory,
   ofStrings "LW" "Load Word" "(rt)=SignExt(Mem32[(rs)+imm])" 0x8C000000 memory,
   ofStrings "LWL" "Load Word Left" "Merge Mem32[(rs)+imm] into (rt) high" 0x88000000 memory,
   ofStrings "LWR" "Load Word Right" "Merge Mem32[(rs)+imm] into (rt) low" 0x98000000 memory,
   ofStrings "LWU" "Load Word Unsigned" "(rt)=ZeroExt(Mem32[(rs)+imm])" 0x9C000000 memory,
   ofStrings "SB" "Store Byte" "Mem8[(rs)+imm]=(rt)" 0xA0000000 memory,
   ofStrings "SC" "Store Conditional Word" "if LLbit: Mem32[(rs)+imm]=(rt)" 0xE0000000 memory,
   ofStrings "SCD" "Store Conditional Doubleword"
     "if LLbit: Mem64[(rs)+imm]=(rt)" 0xF0000000 memory,
   ofStrings "SD" "Store Doubleword" "Mem64[(rs)+imm]=(rt)" 0xFC000000 memory,
   ofStrings "SDL" "Store Doubleword Left" "Mem64[(rs)+imm] high=(rt)" 0xB0000000 memory,
   ofStrings "SDR" "Store Doubleword Right" "Mem64[(rs)+imm] low=(rt)" 0xB4000000 memory,
   ofStrings "SH" "Store Halfword" "Mem16[(rs)+imm]=(rt)" 0xA4000000 memory,
   ofStrings "SW" "Store Word" "Mem32[(rs)+imm]=(rt)" 0xAC000000 memory,
   ofStrings "SWL" "Store Word Left" "Mem32[(rs)+imm] high=(rt)" 0xA8000000 memory,
   ofStrings "SWR" "Store Word Right" "Mem32[(rs)+imm] low=(rt)" 0xB8000000 memory]

def arithmeticInstructions : List Instruction :=
  [ofStrings "ADD" "Add" "(rd)=(rs)+(rt)" 0x00000020 threeRegisters,
   ofStrings "ADDU" "Add Unsigned" "(rd)=(rs)+(rt)" 0x00000021 threeRegisters,
   ofStrings "ADDI" "Add Immediate" "(rt)=(rs)+SignExt(imm)" 0x20000000 withImmediate,
   ofStrings "ADDIU" "Add Immediate Unsigned" "(rt)=(rs)+SignExt(imm)" 0x24000000 withImmediate,
   ofStrings "AND" "And" "(rd)=(rs)&(rt)" 0x00000024 threeRegisters,
   ofStrings "ANDI" "And Immediate" "(rt)=(rs)&ZeroExt(imm)" 0x30000000 withImmediate,
   ofStrings "OR" "Or" "(rd)=(rs)|(rt)" 0x00000025 threeRegisters,
   ofStrings "ORI" "Or Immediate" "(rt)=(rs)|ZeroExt(imm)" 0x34000000 withImmediate,
   ofStrings "XOR" "Exclusive Or" "(rd)=(rs)^(rt)" 0x00000026 threeRegisters,
   ofStrings "XORI" "Exclusive Or Immediate" "(rt)=(rs)^ZeroExt(imm)" 0x38000000 withImmediate,
   ofStrings "NOR" "Nor" "(rd)=~((rs)|(rt))" 0x00000027 threeRegisters,
   ofStrings "SLT" "Set on Less Than" "(rd)=(rs)<(rt)" 0x0000002A threeRegisters,
   ofStrings "SLTU" "Set on Less Than Unsigned" "(rd)=(rs)<(rt)" 0x0000002B threeRegisters,
   ofStrings "SLTI" "Set on Less Than Immediate"
     "(rt)=(rs)<SignExt(imm)" 0x28000000 withImmediate,
   ofStrings "SLTIU" "Set on Less Than Immediate Unsigned"
     "(rt)=(rs)<SignExt(imm)" 0x2C000000 withImmediate,
   ofStrings "SUB" "Subtract" "(rd)=(rs)-(rt)" 0x00000022 threeRegisters,
   ofStrings "SUBU" "Subtract Unsigned" "(rd)=(rs)-(rt)" 0x00000023 threeRegisters,
   ofStrings "LUI" "Load Upper Immediate"
     "(rt)=imm<<16" 0x3C000000 [(.general, .rt), (.number16, .imm)]]

def doublewordInstructions : List Instruction :=
  [ofStrings "DADD" "Doubleword Add" "(rd)=(rs)+(rt)" 0x0000002C threeRegisters,
   ofStrings "DADDU" "Doubleword Add Unsigned" "(rd)=(rs)+(rt)" 0x0000002D threeRegisters,
   ofStrings "DADDI" "Doubleword Add Immediate" "(rt)=(rs)+SignExt(imm)" 0x60000000 withImmediate,
   ofStrings "DADDIU" "Doubleword Add Immediate Unsigned"
     "(rt)=(rs)+SignExt(imm)" 0x64000000 withImmediate,
   ofStrings "DSUB" "Doubleword Subtract" "(rd)=(rs)-(rt)" 0x0000002E threeRegisters,
   ofStrings "DSUBU" "Doubleword Subtract Unsigned" "(rd)=(rs)-(rt)" 0x0000002F threeRegisters]

/-- Products, quotients and the registers that hold them. -/
def productInstructions : List Instruction :=
  [ofStrings "MULT" "Multiply" "(HI,LO)=(rs)*(rt)" 0x00000018 pair,
   ofStrings "MULTU" "Multiply Unsigned" "(HI,LO)=(rs)*(rt)" 0x00000019 pair,
   ofStrings "DIV" "Divide" "LO=(rs)/(rt); HI=(rs)%(rt)" 0x0000001A pair,
   ofStrings "DIVU" "Divide Unsigned" "LO=(rs)/(rt); HI=(rs)%(rt)" 0x0000001B pair,
   ofStrings "DMULT" "Doubleword Multiply" "(HI,LO)=(rs)*(rt)" 0x0000001C pair,
   ofStrings "DMULTU" "Doubleword Multiply Unsigned" "(HI,LO)=(rs)*(rt)" 0x0000001D pair,
   ofStrings "DDIV" "Doubleword Divide" "LO=(rs)/(rt); HI=(rs)%(rt)" 0x0000001E pair,
   ofStrings "DDIVU" "Doubleword Divide Unsigned" "LO=(rs)/(rt); HI=(rs)%(rt)" 0x0000001F pair,
   ofStrings "MFHI" "Move From HI" "(rd)=HI" 0x00000010 [(.general, .rd)],
   ofStrings "MFLO" "Move From LO" "(rd)=LO" 0x00000012 [(.general, .rd)],
   ofStrings "MTHI" "Move To HI" "HI=(rs)" 0x00000011 [(.general, .rs)],
   ofStrings "MTLO" "Move To LO" "LO=(rs)" 0x00000013 [(.general, .rs)]]

def shiftInstructions : List Instruction :=
  [ofStrings "SLL" "Shift Left Logical" "(rd)=(rt)<<sa" 0x00000000 fixedShift,
   ofStrings "SRL" "Shift Right Logical" "(rd)=(rt)>>sa" 0x00000002 fixedShift,
   ofStrings "SRA" "Shift Right Arithmetic" "(rd)=(rt)>>>sa" 0x00000003 fixedShift,
   ofStrings "SLLV" "Shift Left Logical Variable" "(rd)=(rt)<<(rs)" 0x00000004 variableShift,
   ofStrings "SRLV" "Shift Right Logical Variable" "(rd)=(rt)>>(rs)" 0x00000006 variableShift,
   ofStrings "SRAV" "Shift Right Arithmetic Variable" "(rd)=(rt)>>>(rs)" 0x00000007 variableShift,
   ofStrings "DSLL" "Doubleword Shift Left Logical" "(rd)=(rt)<<sa" 0x00000038 fixedShift,
   ofStrings "DSRL" "Doubleword Shift Right Logical" "(rd)=(rt)>>sa" 0x0000003A fixedShift,
   ofStrings "DSRA" "Doubleword Shift Right Arithmetic" "(rd)=(rt)>>>sa" 0x0000003B fixedShift,
   ofStrings "DSLL32" "Doubleword Shift Left Logical Plus 32"
     "(rd)=(rt)<<(sa+32)" 0x0000003C fixedShift,
   ofStrings "DSRL32" "Doubleword Shift Right Logical Plus 32"
     "(rd)=(rt)>>(sa+32)" 0x0000003E fixedShift,
   ofStrings "DSRA32" "Doubleword Shift Right Arithmetic Plus 32"
     "(rd)=(rt)>>>(sa+32)" 0x0000003F fixedShift,
   ofStrings "DSLLV" "Doubleword Shift Left Logical Variable"
     "(rd)=(rt)<<(rs)" 0x00000014 variableShift,
   ofStrings "DSRLV" "Doubleword Shift Right Logical Variable"
     "(rd)=(rt)>>(rs)" 0x00000016 variableShift,
   ofStrings "DSRAV" "Doubleword Shift Right Arithmetic Variable"
     "(rd)=(rt)>>>(rs)" 0x00000017 variableShift]

def branchInstructions : List Instruction :=
  [ofStrings "BEQ" "Branch on Equal" "if (rs==rt) PC=PC+imm*4" 0x10000000 compareBranch,
   ofStrings "BNE" "Branch on Not Equal" "if (rs!=rt) PC=PC+imm*4" 0x14000000 compareBranch,
   ofStrings "BLEZ" "Branch on Less or Equal Zero" "if (rs<=0) PC=PC+imm*4" 0x18000000 zeroBranch,
   ofStrings "BGTZ" "Branch on Greater Than Zero" "if (rs>0) PC=PC+imm*4" 0x1C000000 zeroBranch,
   ofStrings "BLTZ" "Branch on Less Than Zero" "if (rs<0) PC=PC+imm*4" 0x04000000 zeroBranch,
   ofStrings "BGEZ" "Branch on Greater or Equal Zero"
     "if (rs>=0) PC=PC+imm*4" 0x04010000 zeroBranch,
   ofStrings "BLTZAL" "Branch on Less Than Zero and Link"
     "R31=PC+8; if (rs<0) PC=PC+imm*4" 0x04100000 zeroBranch,
   ofStrings "BGEZAL" "Branch on Greater or Equal Zero and Link"
     "R31=PC+8; if (rs>=0) PC=PC+imm*4" 0x04110000 zeroBranch]

def jumpInstructions : List Instruction :=
  [ofStrings "J" "Jump" "PC=PC[63:26]||target||00" 0x08000000 [(.number24, .target)],
   ofStrings "JAL" "Jump and Link"
     "R31=PC+8; PC=PC[63:26]||target||00" 0x0C000000 [(.number24, .target)],
   ofStrings "JR" "Jump Register" "PC=(rs)" 0x00000008 [(.general, .rs)],
   ofStrings "JALR" "Jump and Link Register" "R31=PC+8; PC=(rs)" 0x0000F809 [(.general, .rs)]]

/-- Moves between the two banks of registers. -/
def controlInstructions : List Instruction :=
  [ofStrings "MFC0" "Move From Coprocessor 0" "(rt)=CP0[rd]" 0x40000000 controlMove,
   ofStrings "MTC0" "Move To Coprocessor 0" "CP0[rd]=(rt)" 0x40800000 controlMove,
   ofStrings "DMFC0" "Doubleword Move From Coprocessor 0" "(rt)=CP0[rd]" 0x40200000 controlMove,
   ofStrings "DMTC0" "Doubleword Move To Coprocessor 0" "CP0[rd]=(rt)" 0x40A00000 controlMove]

def builtin : List Instruction :=
  otherInstructions ++ memoryInstructions ++ arithmeticInstructions ++
    doublewordInstructions ++ productInstructions ++ shiftInstructions ++
    branchInstructions ++ jumpInstructions ++ controlInstructions

example : builtin.length = 95 := by decide
example : (builtin.map Instruction.symbol).Nodup := by decide +kernel

end Mips64.Instruction

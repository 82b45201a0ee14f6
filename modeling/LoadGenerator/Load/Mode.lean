/-!
# Load modes

What a run puts under pressure.
-/

namespace LoadGenerator.Load

/-- Spinning processors, held memory, both side by side, or writing a scratch file over and over. -/
inductive Mode where
  | cpu
  | mem
  | cpuMem
  | io
  deriving DecidableEq

namespace Mode

def all : List Mode := [cpu, mem, cpuMem, io]

def name : Mode → String
  | cpu => "cpu"
  | mem => "mem"
  | cpuMem => "cpu-mem"
  | io => "io"

def ofName? (name : String) : Option Mode := all.find? fun mode => mode.name == name

def description : Mode → String
  | cpu => "Cpu"
  | mem => "Mem"
  | cpuMem => "CpuMem"
  | io => "Io"

def usesCpu : Mode → Bool
  | cpu | cpuMem => true
  | mem | io => false

def usesMemory : Mode → Bool
  | mem | cpuMem => true
  | cpu | io => false

def usesDisk : Mode → Bool
  | io => true
  | cpu | mem | cpuMem => false

end Mode

end LoadGenerator.Load

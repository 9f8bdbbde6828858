import Disasm.Disassembly
import Disasm.Pool
import Disasm.Text.Hex

/-!
# Regions of code

Several buffers, each in a context of its own, give one listing: the records of every region, with
the regions in ascending order of address. Regions at the same address keep their order.

Each region is a job for a pool of workers, and each job has a place of its own for what it
decodes, so that it does not matter which worker takes which job.
-/

namespace Disasm

/-- Some code and where it stands. -/
structure Region where
  bytes : List UInt8
  context : Context
  name : String
deriving DecidableEq, Inhabited

namespace Region

def records (r : Region) : List Instruction :=
  Disasm.records r.context.mode r.context.base r.bytes

/-- The regions in the order of their addresses. -/
def ordered (regions : List Region) : List Region :=
  regions.mergeSort fun a b => a.context.base ≤ b.context.base

/-! ## Messages -/

/-- Reported of a region without bytes. -/
def emptyNote (r : Region) : Log.Message :=
  ⟨.decoder, .error, "Region " ++ r.name ++ " is empty"⟩

/-- Reported of a region whose records are known. -/
def decodedNote (r : Region) (records : List Instruction) : Log.Message :=
  let invalid := records.countP (!·.isValid)
  let trail :=
    if invalid = 0 then "" else "; resynchronised after " ++ toString invalid ++ " undecodable"
  ⟨.decoder, .info, "Decoded " ++ toString r.bytes.length ++ " bytes at " ++
    Hex.padded 8 r.context.base.toNat ++ " as " ++ toString records.length ++ " records" ++ trail⟩

/-! ## Decoding by a pool -/

/-- What the jobs share: a place for the records of each region, and the messages of the workers
in the order in which they were reported. -/
structure Slots where
  slots : List (List Instruction)
  notes : List Log.Message := []

/-- The job of decoding the region that has place `k`. -/
def job (k : Nat) (r : Region) : Job ConfigurationError Slots :=
  .ofEffect fun s =>
    match Disassembly.ofBytes r.bytes r.context with
    | .ok d => (none, ⟨s.slots.set k d.toList, s.notes ++ [r.decodedNote d.toList]⟩)
    | .error e => (some e, s)

/-- A pool that has a job for every region, in the order of the list. There are no more workers
than regions. -/
def pool (threads : Nat) (regions : List Region) : Pool ConfigurationError Slots :=
  (regions.mapIdx job).foldl Pool.enqueue
    (.ofThreads (min threads regions.length) ⟨List.replicate regions.length [], []⟩)

/-- The records of all regions, and the messages of the caller and of the workers. -/
structure Outcome where
  records : Except ConfigurationError (List Instruction)
  notes : List Log.Message := []
  workerNotes : List Log.Message := []

/-- Decodes all regions. A region without bytes is refused before anything is decoded. -/
def perform (threads : Nat) (regions : List Region) : Outcome :=
  match regions.find? (·.bytes.isEmpty) with
  | some r => ⟨.error .emptyBuffer, [r.emptyNote], []⟩
  | none =>
    match (pool threads (ordered regions)).flush with
    | (some e, p) => ⟨.error e, [], p.store.notes ++ p.notes⟩
    | (none, p) => ⟨.ok p.store.slots.flatten, [], p.store.notes ++ p.notes⟩

/-- The records of all regions. -/
def disassemble (threads : Nat) (regions : List Region) :
    Except ConfigurationError (List Instruction) :=
  (perform threads regions).records

end Region

end Disasm

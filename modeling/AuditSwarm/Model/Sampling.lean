import AuditSwarm.Model.State
import AuditSwarm.Python.Json

/-!
# Audit samples

`sampling.py`: the sample of a population, with the receipt from which it can be selected again.
-/

namespace AuditSwarm

open Python StrEnum

namespace Sampling

/-- `random.Random(seed).sample(range(n), k)`: distinct elements of the range. -/
structure Sampler where
  sample : (seed n k : Nat) → List Nat
  length_sample : ∀ seed n k, k ≤ n → (sample seed n k).length = k
  nodup_sample : ∀ seed n k, k ≤ n → (sample seed n k).Nodup
  lt_of_mem_sample : ∀ seed n k, k ≤ n → ∀ i ∈ sample seed n k, i < n

structure SampleSelectionReceipt where
  sessionId : Str
  controlId : Str
  populationCount : Nat
  populationSha256 : Str
  sampleSize : Nat
  samplingMethod : Str
  seedHmacSha256 : Str
  selectedIndices : List Nat
  selectedItems : List Str
  deriving DecidableEq

/-- `s.encode("utf-8")` -/
def encoded (s : Str) : Except Raised Bytes :=
  Except.orRaise (encodeUtf8 s) ⟨lit "UnicodeEncodeError", lit "surrogates not allowed"⟩

def computeIpePopulationDigest (rt : Runtime) (populationItems : List Str) : Except Raised Str := do
  let canonical ← encoded (Json.write (.arr (populationItems.map .str)))
  return hexdigest (rt.digest (.plain canonical))

def seedHex (rt : Runtime) (sessionId controlId : Str) : Except Raised Str := do
  let key ← encoded sessionId
  let message ← encoded controlId
  return hexdigest (rt.digest (.keyed key message))

def hexDigit (c : CodePoint) : Nat := if c.val < 97 then c.val - 48 else c.val - 87

/-- `int(seed_hex, 16)` -/
def intOfHex (s : Str) : Nat := s.foldl (fun n c => 16 * n + hexDigit c) 0

/-- The size, the method and the indices of a sample. -/
def selection (sampler : Sampler) (seed : Str) (popCount : Nat) (sampleSize : Int) :
    Nat × SamplingMethod × List Nat :=
  if sampleSize ≤ 0 ∨ popCount = 0 then (0, .notApplicable, [])
  else if sampleSize ≥ popCount then (popCount, .fullPopulation, List.range popCount)
  else
    let k := sampleSize.toNat
    (k, if k = 1 then .testOfOne else .random,
      (sampler.sample (intOfHex seed) popCount k).mergeSort)

def deterministicSampleSelection (rt : Runtime) (sampler : Sampler) (populationItems : List Str)
    (sampleSize : Int) (sessionId controlId : Str) : Except Raised SampleSelectionReceipt := do
  let popHash ← computeIpePopulationDigest rt populationItems
  let seed ← seedHex rt sessionId controlId
  let (size, method, indices) := selection sampler seed populationItems.length sampleSize
  return {
    sessionId := sessionId
    controlId := controlId
    populationCount := populationItems.length
    populationSha256 := popHash
    sampleSize := size
    samplingMethod := value method
    seedHmacSha256 := seed
    selectedIndices := indices
    selectedItems := indices.map fun i => populationItems.getD i [] }

end Sampling

end AuditSwarm

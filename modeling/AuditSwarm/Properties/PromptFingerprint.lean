import AuditSwarm.Lib.Framing
import AuditSwarm.Model.System

/-!
# The prompt fingerprint covers the prompts

What `prompt_fingerprint` hashes tells the lists of prompts apart, so that runs with the same
fingerprint used the same prompts.
-/

namespace AuditSwarm

open Python

namespace AuditFlow

variable {rt : Runtime}

theorem toBytes8_injective {m n : Nat} (hm : m < 2 ^ 64) (hn : n < 2 ^ 64)
    (h : toBytes8 m = toBytes8 n) : m = n := by
  have hbyte : ∀ i < 8, m / 256 ^ i % 256 = n / 256 ^ i % 256 := by
    intro i hi
    have hmem : i ∈ (List.range 8).reverse := by simpa using hi
    have hoctet := List.map_inj_left.mp h i hmem
    simpa using congrArg UInt8.toNat hoctet
  have h0 := hbyte 0 (by decide)
  have h1 := hbyte 1 (by decide)
  have h2 := hbyte 2 (by decide)
  have h3 := hbyte 3 (by decide)
  have h4 := hbyte 4 (by decide)
  have h5 := hbyte 5 (by decide)
  have h6 := hbyte 6 (by decide)
  have h7 := hbyte 7 (by decide)
  norm_num at h0 h1 h2 h3 h4 h5 h6 h7 hm hn
  omega

/-- The lengths below `2 ^ 64` are told apart by their eight bytes. -/
theorem lengthCode_toBytes8 : Framing.LengthCode toBytes8 8 (2 ^ 64) where
  width_pos := by decide
  length_eq _ := by simp [toBytes8]
  injective _ _ hm hn h := toBytes8_injective hm hn h

/-- The prompts a run is fingerprinted by: the configuration files of its phase, and the specialist
prompt when there are skills. -/
def promptParts (rt : Runtime) (env : Env) (phase : Phase) (skills : List Skill) :
    Except Exn (List Bytes) := do
  let configs ← (phaseConfigFiles phase).mapM fun name => raising (env.readConfig name)
  let prompts ← encodedPrompts rt skills
  return configs ++ prompts

theorem promptFingerprint_eq (env : Env) (phase : Phase) (skills : List Skill) :
    promptFingerprint rt env phase skills =
      (promptParts rt env phase skills).map fun parts =>
        hexdigest (rt.digest (.plain (parts.flatMap (Framing.frame toBytes8)))) := by
  unfold promptFingerprint promptParts
  cases (phaseConfigFiles phase).mapM fun name => raising (env.readConfig name) with
  | error e => rfl
  | ok configs =>
      cases encodedPrompts rt skills with
      | error e => rfl
      | ok prompts => rfl

/-- The framed bytes of two lists of prompts are the same only when the lists are, and so are the
fingerprints of two runs, without collisions. -/
theorem promptFingerprint_injective (rt : Runtime) (hrt : rt.CollisionFree) :
    (∀ parts parts' : List Bytes, (∀ p ∈ parts, p.length < 2 ^ 64) →
      (∀ p ∈ parts', p.length < 2 ^ 64) →
      (parts.flatMap fun part => toBytes8 part.length ++ part) =
        (parts'.flatMap fun part => toBytes8 part.length ++ part) → parts = parts') ∧
    ∀ (env env' : Env) (phase phase' : Phase) (skills skills' : List Skill)
      (parts parts' : List Bytes) (fingerprint : Str),
      promptParts rt env phase skills = .ok parts →
      promptParts rt env' phase' skills' = .ok parts' →
      (∀ p ∈ parts, p.length < 2 ^ 64) → (∀ p ∈ parts', p.length < 2 ^ 64) →
      promptFingerprint rt env phase skills = .ok fingerprint →
      promptFingerprint rt env' phase' skills' = .ok fingerprint → parts = parts' := by
  have hframes : ∀ parts parts' : List Bytes, (∀ p ∈ parts, p.length < 2 ^ 64) →
      (∀ p ∈ parts', p.length < 2 ^ 64) →
      parts.flatMap (Framing.frame toBytes8) = parts'.flatMap (Framing.frame toBytes8) →
      parts = parts' := by
    intro parts parts' hparts hparts' heq
    exact Framing.frames_injective lengthCode_toBytes8 hparts hparts' heq
  refine ⟨hframes, ?_⟩
  intro env env' phase phase' skills skills' parts parts' fingerprint hrun hrun' hparts hparts'
    hfirst hsecond
  rw [promptFingerprint_eq, hrun] at hfirst
  rw [promptFingerprint_eq, hrun'] at hsecond
  have hdigests := (Except.ok.inj hfirst).trans (Except.ok.inj hsecond).symm
  have hmessages := hrt _ _ (hexdigest_injective hdigests)
  exact hframes parts parts' hparts hparts' hmessages

def promptEnv (uuid : String) : Env :=
  { Sample.smallEnv uuid with
    readConfig := fun name => .ok (name.map fun c => UInt8.ofNat c.val) }

theorem promptFingerprint_injective_sample :
    ∃ parts parts' : List Bytes,
      promptParts (.ascii Runtime.transparentDigest) (promptEnv "u1") .planning [] =
        .ok parts ∧
      promptParts (.ascii Runtime.transparentDigest) (promptEnv "u2") .planning [] =
        .ok parts' ∧ parts = parts' := by
  refine ⟨_, _, rfl, rfl, ?_⟩
  exact (promptFingerprint_injective _ Runtime.collisionFree_transparent).2
    (promptEnv "u1") (promptEnv "u2") .planning .planning [] [] _ _ _ rfl rfl
    (by decide +kernel) (by decide +kernel) rfl rfl

end AuditFlow

end AuditSwarm

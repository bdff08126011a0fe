import Ito.HsmDisabled
import Ito.Library.Fallible

/-! Runs of the HSM simulator, and which of them have keys.

Source: `python/operations/hsm_simulator.py`. -/

namespace Ito.Hsm

open HSMSimulator

variable {hashes : Hashes} {simulator : HSMSimulator} {keyId : String}

/-! Importing a state -/

def MetadataDict.Complete (metadata : MetadataDict) : Prop :=
  metadata.algorithm.isSome ∧ metadata.createdNs.isSome

structure StateDict.Importable (state : StateDict) (keys : Dict MetadataDict) : Prop where
  present : state.keys = some keys
  complete : ∀ entry ∈ keys.entries, entry.2.Complete
  numbered : ∀ entry ∈ state.audit.getD [], entry.sequence.isSome

theorem item_eq_ok {A : Type} {value : Option A} {found : A} :
    item value = .ok found ↔ value = some found := by
  cases value <;> simp [item]

theorem importMetadata_ok {dict : MetadataDict} :
    (∃ metadata, importMetadata keyId dict = .ok metadata) ↔ dict.Complete := by
  rw [MetadataDict.Complete, Option.isSome_iff_exists, Option.isSome_iff_exists]
  constructor
  · rintro ⟨metadata, done⟩
    obtain ⟨algorithm, first, done⟩ := Fallible.bind_eq_ok.mp done
    obtain ⟨createdNs, second, _⟩ := Fallible.bind_eq_ok.mp done
    exact ⟨⟨algorithm, item_eq_ok.mp first⟩, createdNs, item_eq_ok.mp second⟩
  · rintro ⟨⟨algorithm, first⟩, createdNs, second⟩
    rw [importMetadata, first, second]
    exact ⟨_, rfl⟩

structure Gains (before after : HSMSimulator) (ids : List String) : Prop where
  keys : ∀ keyId, (after.keys.find? keyId).isSome ↔
    (before.keys.find? keyId).isSome ∨ keyId ∈ ids
  metadata : ∀ keyId, (after.metadata.find? keyId).isSome ↔
    (before.metadata.find? keyId).isSome ∨ keyId ∈ ids

theorem gains_set (simulator : HSMSimulator) (keyId : String) (key : Key) (metadata : KeyMetadata) :
    Gains simulator { simulator with
      keys := simulator.keys.set keyId key
      metadata := simulator.metadata.set keyId metadata } [keyId] := by
  constructor
  · intro other
    by_cases same : other = keyId <;> simp [SortedMap.find?_set, same]
  · intro other
    by_cases same : other = keyId <;> simp [SortedMap.find?_set, same]

theorem importKeys_ok {fresh : String → Key} {entries : List (String × MetadataDict)} :
    (∃ imported, entries.foldlM (importKey fresh) simulator = .ok imported) ↔
      ∀ entry ∈ entries, entry.2.Complete := by
  induction entries generalizing simulator with
  | nil => simp [pure, Except.pure]
  | cons entry rest ih =>
      rw [List.forall_mem_cons, List.foldlM_cons, ← importMetadata_ok]
      constructor
      · rintro ⟨imported, done⟩
        obtain ⟨next, first, others⟩ := Fallible.bind_eq_ok.mp done
        obtain ⟨metadata, read, _⟩ := Fallible.bind_eq_ok.mp first
        exact ⟨⟨metadata, read⟩, ih.mp ⟨imported, others⟩⟩
      · rintro ⟨⟨metadata, read⟩, others⟩
        rw [importKey, read]
        exact ih.mpr others

theorem importKeys_gains {fresh : String → Key} {entries : List (String × MetadataDict)}
    {imported : HSMSimulator} (done : entries.foldlM (importKey fresh) simulator = .ok imported) :
    Gains simulator imported (entries.map Prod.fst) := by
  induction entries generalizing simulator with
  | nil =>
      obtain rfl := Except.ok.inj done
      constructor <;> simp
  | cons entry rest ih =>
      rw [List.foldlM_cons] at done
      obtain ⟨next, first, others⟩ := Fallible.bind_eq_ok.mp done
      obtain ⟨metadata, _, made⟩ := Fallible.bind_eq_ok.mp first
      obtain rfl := Except.ok.inj made
      have here := gains_set simulator entry.1 (fresh entry.1) metadata
      have later := ih others
      constructor
      · intro keyId
        rw [later.keys, here.keys, List.map_cons, List.mem_singleton, List.mem_cons, or_assoc]
      · intro keyId
        rw [later.metadata, here.metadata, List.map_cons, List.mem_singleton, List.mem_cons, or_assoc]

theorem mapM_item_ok {entries : List AuditEntry} :
    (∃ sequences, entries.mapM (fun entry => item entry.sequence) = Except.ok sequences) ↔
      ∀ entry ∈ entries, entry.sequence.isSome := by
  induction entries with
  | nil => simp [pure, Except.pure]
  | cons entry rest ih =>
      rw [List.forall_mem_cons, ← ih, List.mapM_cons, Option.isSome_iff_exists]
      constructor
      · rintro ⟨sequences, done⟩
        obtain ⟨first, numbered, done⟩ := Fallible.bind_eq_ok.mp done
        obtain ⟨others, rest, _⟩ := Fallible.bind_eq_ok.mp done
        exact ⟨⟨first, item_eq_ok.mp numbered⟩, others, rest⟩
      · rintro ⟨⟨first, numbered⟩, others, rest⟩
        rw [numbered, rest]
        exact ⟨first :: others, rfl⟩

theorem importState_ok {fresh : String → Key} {state : StateDict} :
    (∃ imported, importState fresh state = .ok imported) ↔ ∃ keys, state.Importable keys := by
  constructor
  · rintro ⟨imported, done⟩
    obtain ⟨keys, present, done⟩ := Fallible.bind_eq_ok.mp done
    obtain ⟨filled, loaded, done⟩ := Fallible.bind_eq_ok.mp done
    obtain ⟨sequences, numbered, _⟩ := Fallible.bind_eq_ok.mp done
    exact ⟨keys, item_eq_ok.mp present, importKeys_ok.mp ⟨filled, loaded⟩,
      mapM_item_ok.mp ⟨sequences, numbered⟩⟩
  · rintro ⟨keys, present, complete, numbered⟩
    obtain ⟨filled, loaded⟩ := importKeys_ok.mpr complete
    obtain ⟨sequences, numbered⟩ := mapM_item_ok.mpr numbered
    refine ⟨{ filled with
      audit := state.audit.getD []
      sequence := sequences.foldl max (sequences.headD 0) }, ?_⟩
    refine Fallible.bind_eq_ok.mpr ⟨keys, item_eq_ok.mpr present, ?_⟩
    refine Fallible.bind_eq_ok.mpr ⟨filled, loaded, ?_⟩
    exact Fallible.bind_eq_ok.mpr ⟨sequences, numbered, rfl⟩

theorem importState_gains {fresh : String → Key} {state : StateDict} {imported : HSMSimulator}
    (done : importState fresh state = .ok imported) :
    ∃ keys, state.keys = some keys ∧ Gains {} imported (keys.entries.map Prod.fst) := by
  obtain ⟨keys, present, done⟩ := Fallible.bind_eq_ok.mp done
  obtain ⟨filled, loaded, done⟩ := Fallible.bind_eq_ok.mp done
  obtain ⟨sequences, _, made⟩ := Fallible.bind_eq_ok.mp done
  obtain rfl := Except.ok.inj made
  have gains := importKeys_gains loaded
  exact ⟨keys, item_eq_ok.mp present, gains.keys, gains.metadata⟩

theorem paired_of_gains {before after : HSMSimulator} {ids : List String} (paired : Paired before)
    (gains : Gains before after ids) : Paired after := by
  intro keyId
  rw [Bool.eq_iff_iff, gains.keys, gains.metadata, paired keyId]

/-! One step -/

theorem decrypt_keeps (ciphertext aad : Bytes) (usedNs stampNs : Int) :
    (simulator.decrypt hashes keyId ciphertext aad usedNs stampNs).1 = simulator := by
  rw [HSMSimulator.decrypt]
  split
  case h_1 => rfl
  case h_2 =>
    split
    case h_1 => rfl
    case h_2 =>
      dsimp only
      split_ifs <;> rfl

theorem sign_keeps (data : Bytes) (usedNs stampNs : Int) :
    (simulator.sign hashes keyId data usedNs stampNs).1 = simulator := by
  rw [HSMSimulator.sign]
  split
  case h_1 => rfl
  case h_2 =>
    split
    case h_1 => rfl
    case h_2 => split_ifs <;> rfl

theorem disableKey_keeps (stampNs : Int) : (simulator.disableKey keyId stampNs).1 = simulator := by
  rw [disableKey]
  split
  case isTrue => rfl
  case isFalse => split <;> rfl

theorem verify_keeps (data signature : Bytes) (stampNs : Int) :
    (simulator.verify hashes keyId data signature stampNs).1.keys = simulator.keys ∧
      (simulator.verify hashes keyId data signature stampNs).1.metadata = simulator.metadata := by
  rw [HSMSimulator.verify]
  split
  case h_1 => exact ⟨rfl, rfl⟩
  case h_2 =>
    split
    case h_1 => exact ⟨rfl, rfl⟩
    case h_2 => split_ifs <;> exact ⟨rfl, rfl⟩

theorem Gains.refl (simulator : HSMSimulator) : Gains simulator simulator [] where
  keys := by simp
  metadata := by simp

theorem gains_of_eq {before after : HSMSimulator} (keys : after.keys = before.keys)
    (metadata : after.metadata = before.metadata) : Gains before after [] where
  keys := by simp [keys]
  metadata := by simp [metadata]

/-- The name of the key that a valid call of `create_key` adds. -/
def created (simulator : HSMSimulator) (keyId algorithm : String) : List String :=
  if keyId ≠ "" ∧ algorithm ∈ algorithms ∧ simulator.keys.find? keyId = none then [keyId] else []

theorem createKey_gains (algorithm : String) (key : Key) (createdNs stampNs : Int) :
    Gains simulator (simulator.createKey keyId algorithm key createdNs stampNs).1
      (created simulator keyId algorithm) := by
  rw [createKey, created]
  split
  case isTrue invalid =>
    rw [if_neg (by tauto)]
    exact Gains.refl simulator
  case isFalse valid =>
    rw [not_or, not_not] at valid
    cases held : simulator.keys.find? keyId with
    | some present =>
        rw [if_pos (by simp), if_neg (by simp)]
        exact Gains.refl simulator
    | none =>
        rw [if_neg (by simp), if_pos ⟨valid.1, valid.2, rfl⟩]
        have gains := gains_set simulator keyId key
          { keyId := keyId, algorithm := algorithm, createdNs := createdNs }
        exact ⟨gains.keys, gains.metadata⟩

theorem rotateKey_gains (paired : Paired simulator) (newKey : Key) (createdNs stampNs : Int) :
    Gains simulator (simulator.rotateKey hashes keyId newKey createdNs stampNs).1 [] := by
  rw [rotateKey]
  have both := paired keyId
  cases held : simulator.keys.find? keyId with
  | none => exact Gains.refl simulator
  | some oldKey =>
      rw [held] at both
      obtain ⟨metadata, described⟩ := Option.isSome_iff_exists.mp both.symm
      simp only [described]
      have gains := gains_set simulator keyId newKey
        { keyId := keyId
          algorithm := metadata.algorithm
          createdNs := createdNs
          lastUsedNs := metadata.lastUsedNs
          rotationCount := metadata.rotationCount + 1
          disabled := metadata.disabled }
      constructor
      · intro other
        refine (gains.keys other).trans ?_
        by_cases same : other = keyId <;> simp [same, held]
      · intro other
        refine (gains.metadata other).trans ?_
        by_cases same : other = keyId <;> simp [same, described]

/-- The call is one that puts a key into a simulator without keys. -/
def Op.AddsKey : Op → Prop
  | .createKey keyId algorithm _ _ _ => keyId ≠ "" ∧ algorithm ∈ algorithms
  | .importState _ state => ∃ keys, state.Importable keys ∧ keys.entries ≠ []
  | _ => False

theorem noKeys_of_gains {before after : HSMSimulator} {ids : List String} (none : NoKeys before)
    (gains : Gains before after ids) : NoKeys after ↔ ids = [] := by
  have free : NoKeys after ↔ ∀ keyId, ¬ (after.keys.find? keyId).isSome :=
    forall_congr' fun keyId => by simp
  rw [free, List.eq_nil_iff_forall_not_mem]
  apply forall_congr'
  intro keyId
  rw [gains.keys, none keyId]
  simp

@[simp] theorem output_fst {A : Type} (wrap : A → Output) (result : Result A) :
    (output wrap result).1 = result.1 := by
  rw [output]
  split <;> rfl

theorem step_gains {before after : HSMSimulator} {op : Op} {out : Output} (paired : Paired before)
    (stepped : step hashes before op = some (after, out)) :
    ∃ base ids, (base = before ∨ base = {}) ∧ Gains base after ids ∧
      (NoKeys before → (ids = [] ↔ ¬ op.AddsKey)) := by
  have kept : ∀ {next : HSMSimulator}, next = after → next.keys = before.keys →
      next.metadata = before.metadata → ¬ op.AddsKey → ∃ base ids, (base = before ∨ base = {}) ∧
        Gains base after ids ∧ (NoKeys before → (ids = [] ↔ ¬ op.AddsKey)) := by
    rintro _ rfl keys metadata none
    exact ⟨before, [], Or.inl rfl, gains_of_eq keys metadata, fun _ => by simp [none]⟩
  have next := congrArg (Option.map Prod.fst) stepped
  cases op with
  | createKey keyId algorithm key createdNs stampNs =>
      simp only [step, Option.map_some, output_fst, Option.some.injEq] at next
      refine ⟨before, created before keyId algorithm, Or.inl rfl, ?_, ?_⟩
      · rw [← next]
        exact createKey_gains algorithm key createdNs stampNs
      · intro none
        simp [created, none keyId, Op.AddsKey]
  | rotateKey keyId newKey createdNs stampNs =>
      simp only [step, Option.map_some, output_fst, Option.some.injEq] at next
      refine ⟨before, [], Or.inl rfl, ?_, fun _ => by simp [Op.AddsKey]⟩
      rw [← next]
      exact rotateKey_gains paired newKey createdNs stampNs
  | disableKey keyId stampNs =>
      simp only [step, Option.map_some, output_fst, Option.some.injEq, disableKey_keeps] at next
      exact kept next rfl rfl id
  | encrypt keyId plaintext aad nonce usedNs stampNs =>
      obtain ⟨raised, never⟩ := encrypt_never hashes before keyId plaintext aad nonce usedNs stampNs
      simp only [step, Option.map_some, output_fst, Option.some.injEq, never] at next
      exact kept next rfl rfl id
  | decrypt keyId ciphertext aad usedNs stampNs =>
      simp only [step, Option.map_some, output_fst, Option.some.injEq, decrypt_keeps] at next
      exact kept next rfl rfl id
  | sign keyId data usedNs stampNs =>
      simp only [step, Option.map_some, output_fst, Option.some.injEq, sign_keeps] at next
      exact kept next rfl rfl id
  | verify keyId data signature stampNs =>
      simp only [step, Option.map_some, output_fst, Option.some.injEq] at next
      exact kept next (verify_keeps data signature stampNs).1
        (verify_keeps data signature stampNs).2 id
  | exportState =>
      simp only [step, Option.map_some, Option.some.injEq] at next
      exact kept next rfl rfl id
  | importState fresh state =>
      rw [step] at stepped
      split at stepped
      case h_1 raised failed =>
        simp only [Option.some.injEq, Prod.mk.injEq] at stepped
        have missing : ¬ Op.AddsKey (.importState fresh state) := by
          rintro ⟨keys, importable, _⟩
          obtain ⟨imported, done⟩ := importState_ok.mpr ⟨keys, importable⟩
          rw [failed] at done
          cases done
        exact kept stepped.1 rfl rfl missing
      case h_2 imported done =>
        simp only [Option.some.injEq, Prod.mk.injEq] at stepped
        obtain ⟨rfl, _⟩ := stepped
        obtain ⟨keys, present, gains⟩ := importState_gains done
        obtain ⟨keys', importable⟩ := importState_ok.mp ⟨imported, done⟩
        have same : keys' = keys := Option.some.inj (importable.present.symm.trans present)
        subst same
        refine ⟨{}, _, Or.inr rfl, gains, fun _ => ?_⟩
        rw [List.map_eq_nil_iff]
        constructor
        · rintro empty ⟨other, again, some⟩
          have same : other = keys' := Option.some.inj (again.present.symm.trans present)
          rw [same] at some
          exact some empty
        · intro none
          by_contra some
          exact none ⟨keys', importable, some⟩

theorem paired_new : Paired {} := fun _ => rfl

theorem noKeys_new : NoKeys {} := fun _ => rfl

theorem step_paired {before after : HSMSimulator} {op : Op} {out : Output} (paired : Paired before)
    (stepped : step hashes before op = some (after, out)) : Paired after := by
  obtain ⟨base, ids, from_, gains, _⟩ := step_gains paired stepped
  obtain rfl | rfl := from_
  · exact paired_of_gains paired gains
  · exact paired_of_gains paired_new gains

theorem step_noKeys {before after : HSMSimulator} {op : Op} {out : Output} (paired : Paired before)
    (none : NoKeys before) (stepped : step hashes before op = some (after, out)) :
    NoKeys after ↔ ¬ op.AddsKey := by
  obtain ⟨base, ids, from_, gains, adds⟩ := step_gains paired stepped
  rw [← adds none]
  obtain rfl | rfl := from_
  · exact noKeys_of_gains none gains
  · exact noKeys_of_gains noKeys_new gains

/-! Every run -/

/-- In a state that calls have reached, the rules for disabled keys hold exactly when there are no
keys. -/
theorem reached_enforced_iff {ops : List Op} {after : HSMSimulator} {log : List (Op × Output)}
    (ran : Machine.exec (step hashes) {} ops = some (after, log)) :
    Enforced hashes after ↔ NoKeys after := by
  apply enforced_iff
  exact Machine.exec_invariant (fun _ simulator => Paired simulator)
    (fun _ _ _ _ _ paired stepped => step_paired paired stepped) paired_new ran

/-- The rules for disabled keys hold all along a run exactly when no call of it puts a key in. -/
theorem enforced_along_iff (hashes : Hashes) (ops : List Op) :
    (Enforced hashes {} ∧ Machine.Along (step hashes) (fun _ _ _ after => Enforced hashes after) {} ops) ↔
      ∀ op ∈ ops, ¬ op.AddsKey := by
  have start : Enforced hashes {} := (enforced_iff paired_new).mpr noKeys_new
  have total : ∀ before op, ∃ after out, step hashes before op = some (after, out) := by
    intro before op
    cases op with
    | importState fresh state =>
        cases done : importState fresh state with
        | error raised => exact ⟨before, .raised raised, by rw [step, done]⟩
        | ok imported => exact ⟨imported, .done, by rw [step, done]⟩
    | _ => exact ⟨_, _, rfl⟩
  rw [and_iff_right start, ← Machine.along_inputs_iff total]
  apply Machine.along_iff (fun simulator => Paired simulator ∧ NoKeys simulator) _
    ⟨paired_new, noKeys_new⟩ (fun op _ => trivial)
  intro before op out after unused _ stepped
  have paired := step_paired unused.1 stepped
  have keys := step_noKeys unused.1 unused.2 stepped
  rw [enforced_iff paired, keys]
  exact ⟨Iff.rfl, fun none => ⟨paired, none⟩⟩

/-! A key that is created cannot be disabled, and one that is imported as disabled still signs -/

def releaseKey : Key := Vector.replicate 32 5

def plainHashes : Hashes := ⟨fun key _ => key, fun _ => "00"⟩

def createRelease : Op := .createKey "release" "HMAC-SHA256" releaseKey 1 2

def disabledRelease : StateDict where
  keys := some (SortedMap.empty.set "release"
    { keyId := some "release", algorithm := some "HMAC-SHA256", createdNs := some 1
      lastUsedNs := none, rotationCount := none, disabled := some true })
  audit := none

theorem release_not_enforced :
    (∃ after log, Machine.exec (step plainHashes) {} [createRelease] = some (after, log) ∧
      after.disableKey "release" 3 = (after, .error .frozenInstanceError) ∧
      ¬ Enforced plainHashes after) ∧
    ∃ after log, Machine.exec (step plainHashes) {} [.importState (fun _ => releaseKey)
        disabledRelease] = some (after, log) ∧
      (after.metadata.find? "release").map KeyMetadata.disabled = some true ∧
      (after.sign plainHashes "release" [] 3 4).2 = .error .frozenInstanceError := by
  refine ⟨⟨_, _, rfl, rfl, ?_⟩, _, _, rfl, rfl, rfl⟩
  intro enforced
  exact not_disables 3 (enforced.disables "release" releaseKey rfl 3)

end Ito.Hsm

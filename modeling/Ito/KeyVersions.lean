import Ito.KeyStore
import Mathlib.Data.List.Range

/-! What calls do to the versions of a key, and which secrets the signer remembers.

Source: `interfaces/custody/key_store.py`. -/

namespace Ito.KeyStore

open InMemoryKeyStore HmacSimulatorSigner

variable {hashes : Hashes} {keyId : String} {payload signature : Bytes} {version : Int}

/-- The versions of a key are `1..n`, and at most one of them is active. -/
structure Numbered (versions : List KeyVersion) : Prop where
  numbers : versions.map KeyVersion.version = (List.range versions.length).map fun index : Nat =>
    (index : Int) + 1
  oneActive : (versions.filter KeyVersion.active).length ≤ 1

/-! The versions of a key -/

theorem filter_deactivate (versions : List KeyVersion) :
    (versions.map KeyVersion.deactivate).filter KeyVersion.active = [] := by
  rw [List.filter_eq_nil_iff]
  intro item member
  obtain ⟨old, _, rfl⟩ := List.mem_map.mp member
  simp [KeyVersion.deactivate]

theorem numbered_rotate {versions : List KeyVersion} (numbered : Numbered versions)
    (keyId : String) :
    Numbered (versions.map KeyVersion.deactivate ++ [⟨keyId, versions.length + 1, true, false⟩]) where
  numbers := by
    have kept : (versions.map KeyVersion.deactivate).map KeyVersion.version =
        versions.map KeyVersion.version := by
      rw [List.map_map]
      rfl
    rw [List.map_append, kept, numbered.numbers, List.length_append, List.length_map,
      List.length_singleton, List.range_succ, List.map_append]
    rfl
  oneActive := by
    rw [List.filter_append, filter_deactivate]
    simp

theorem numbered_revoke {versions : List KeyVersion} (numbered : Numbered versions)
    (version : Int) :
    Numbered (versions.map fun item => if item.version = version then item.deactivate else item) where
  numbers := by
    have kept : (versions.map fun item =>
        if item.version = version then item.deactivate else item).map KeyVersion.version =
        versions.map KeyVersion.version := by
      rw [List.map_map]
      apply List.map_congr_left
      intro item _
      simp only [Function.comp_apply]
      split <;> rfl
    rw [kept, numbered.numbers, List.length_map]
  oneActive := by
    refine le_trans ?_ numbered.oneActive
    rw [List.filter_map, List.length_map]
    apply List.Sublist.length_le
    apply List.monotone_filter_right
    intro item active
    simp only [Function.comp_apply] at active
    split at active
    case isTrue => cases active
    case isFalse => exact active

/-! What a call does to the versions of the keys -/

structure Advances (old new : List KeyVersion) : Prop where
  numbered : Numbered new
  kept : ∀ item ∈ old, ∃ later ∈ new, later.version = item.version
  quiet : ∀ version, (∃ item ∈ old, item.version = version) →
    (∀ item ∈ old, item.version = version → item.active = false) →
    ∀ later ∈ new, later.version = version → later.active = false

theorem Numbered.le_length {versions : List KeyVersion} (numbered : Numbered versions)
    {item : KeyVersion} (member : item ∈ versions) : item.version ≤ versions.length := by
  have listed : item.version ∈ versions.map KeyVersion.version := List.mem_map_of_mem member
  rw [numbered.numbers] at listed
  obtain ⟨index, inside, same⟩ := List.mem_map.mp listed
  rw [List.mem_range] at inside
  omega

theorem advances_refl {versions : List KeyVersion} (numbered : Numbered versions) :
    Advances versions versions where
  numbered := numbered
  kept item member := ⟨item, member, rfl⟩
  quiet _ _ inactive := inactive

theorem advances_rotate {versions : List KeyVersion} (numbered : Numbered versions)
    (keyId : String) :
    Advances versions
      (versions.map KeyVersion.deactivate ++ [⟨keyId, versions.length + 1, true, false⟩]) where
  numbered := numbered_rotate numbered keyId
  kept item member :=
    ⟨item.deactivate, List.mem_append_left _ (List.mem_map_of_mem member), rfl⟩
  quiet version present inactive later member same := by
    rw [List.mem_append, List.mem_singleton] at member
    obtain member | rfl := member
    · obtain ⟨item, _, rfl⟩ := List.mem_map.mp member
      rfl
    · obtain ⟨item, member, older⟩ := present
      have bound := numbered.le_length member
      rw [older, ← same] at bound
      exact absurd bound (by simp)

theorem advances_revoke {versions : List KeyVersion} (numbered : Numbered versions)
    (version : Int) :
    Advances versions
      (versions.map fun item => if item.version = version then item.deactivate else item) where
  numbered := numbered_revoke numbered version
  kept item member := by
    refine ⟨_, List.mem_map_of_mem member, ?_⟩
    split <;> rfl
  quiet other _ inactive later inside same := by
    obtain ⟨item, member, rfl⟩ := List.mem_map.mp inside
    split
    case isTrue => rfl
    case isFalse differ =>
      rw [if_neg differ] at same
      exact inactive item member same

theorem versions_set (store : InMemoryKeyStore) (keyId other : String)
    (versions : List KeyVersion) :
    (⟨store.keys.set keyId versions⟩ : InMemoryKeyStore).versions other =
      if other = keyId then versions else store.versions other := by
  rw [InMemoryKeyStore.versions, SortedMap.find?_set]
  split <;> rfl

def StoreAdvances (store next : InMemoryKeyStore) : Prop :=
  ∀ keyId, Advances (store.versions keyId) (next.versions keyId)

section Store

variable {store next : InMemoryKeyStore} (numbered : ∀ keyId, Numbered (store.versions keyId))

include numbered

theorem rotate_advances {value : KeyVersion} (done : store.rotate keyId = .ok (next, value)) :
    StoreAdvances store next ∧ value ∈ next.versions keyId ∧ value.active = true := by
  rw [InMemoryKeyStore.rotate] at done
  split at done
  case isTrue => cases done
  case isFalse =>
    simp only [Except.ok.injEq, Prod.mk.injEq] at done
    obtain ⟨rfl, rfl⟩ := done
    refine ⟨?_, ?_, rfl⟩
    · intro other
      rw [versions_set]
      split
      case isTrue same =>
        rw [same]
        exact advances_rotate (numbered keyId) keyId
      case isFalse => exact advances_refl (numbered other)
    · rw [versions_set, if_pos rfl]
      exact List.mem_append_right _ List.mem_cons_self

theorem activeKey_advances {value : KeyVersion} (done : store.activeKey keyId = .ok (next, value)) :
    StoreAdvances store next ∧ value ∈ next.versions keyId ∧ value.active = true := by
  rw [InMemoryKeyStore.activeKey] at done
  split at done
  case h_1 found =>
    simp only [Except.ok.injEq, Prod.mk.injEq] at done
    obtain ⟨rfl, rfl⟩ := done
    exact ⟨fun other => advances_refl (numbered other),
      List.mem_reverse.mp (List.mem_of_find?_eq_some found), List.find?_some found⟩
  case h_2 => exact rotate_advances numbered done

theorem revoke_advances (done : store.revoke keyId version = .ok next) :
    StoreAdvances store next ∧ (∃ item ∈ next.versions keyId, item.version = version) ∧
      ∀ item ∈ next.versions keyId, item.version = version → item.active = false := by
  rw [InMemoryKeyStore.revoke] at done
  split at done
  case isFalse => cases done
  case isTrue present =>
    simp only [Except.ok.injEq] at done
    subst done
    rw [List.any_eq_true] at present
    obtain ⟨item, member, same⟩ := present
    rw [decide_eq_true_eq] at same
    refine ⟨?_, ?_, ?_⟩
    · intro other
      rw [versions_set]
      split
      case isTrue same =>
        rw [same]
        exact advances_revoke (numbered keyId) version
      case isFalse => exact advances_refl (numbered other)
    · rw [versions_set, if_pos rfl]
      refine ⟨_, List.mem_map_of_mem member, ?_⟩
      rw [if_pos same]
      exact same
    · rw [versions_set, if_pos rfl]
      intro later inside again
      obtain ⟨old, _, rfl⟩ := List.mem_map.mp inside
      split
      case isTrue => rfl
      case isFalse differ =>
        rw [if_neg differ] at again
        exact absurd again differ

end Store

/-! The secrets -/

def Sound (hashes : Hashes) (secrets : Secrets) : Prop :=
  ∀ keyId version known, secrets.find? (toLex (keyId, version)) = some known →
    known = derived hashes keyId version

variable (keyId version) in
theorem secret_sound {secrets : Secrets} (sound : Sound hashes secrets) :
    (secret hashes secrets keyId version).2 = derived hashes keyId version ∧
      Sound hashes (secret hashes secrets keyId version).1 := by
  rw [secret]
  split
  case h_1 known found => exact ⟨sound keyId version known found, sound⟩
  case h_2 =>
    refine ⟨rfl, ?_⟩
    intro other version' known found
    rw [SortedMap.find?_set] at found
    split at found
    case isTrue same =>
      obtain ⟨rfl, rfl⟩ := Prod.mk.inj (toLex_inj.mp same)
      exact (Option.some.inj found).symm
    case isFalse => exact sound other version' known found

variable (keyId payload signature) in
theorem verifyVersions_eq {secrets : Secrets} (sound : Sound hashes secrets)
    (versions : List KeyVersion) :
    (verifyVersions hashes keyId payload signature secrets versions).2 =
        versions.any (fun item =>
          hashes.hmac (derived hashes keyId item.version) payload = signature) ∧
      Sound hashes (verifyVersions hashes keyId payload signature secrets versions).1 := by
  induction versions generalizing secrets with
  | nil => exact ⟨rfl, sound⟩
  | cons item rest ih =>
      obtain ⟨known, still⟩ := secret_sound keyId item.version sound
      rw [verifyVersions, List.any_cons]
      by_cases matching : hashes.hmac (derived hashes keyId item.version) payload = signature
      · simp [known, matching, still]
      · simpa [known, matching] using ih still

end Ito.KeyStore

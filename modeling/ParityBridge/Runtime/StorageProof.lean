import Mathlib.Data.List.AList

/-! # Storage proofs — `bp_runtime::StorageProofChecker` over the pairs a proof proves

    A storage proof is a set of trie nodes that authenticates storage values
    against a state root.  The checker is modelled by what an accepted proof
    proves: the key-value pairs it holds.  `read_value` answers the value
    under a key, or `None` for a key the proof shows absent, and records the
    key read; `ensure_no_unused_nodes` succeeds exactly when every proved
    pair was read.  A read never fails here: what a proof can answer is the
    pairs it proves.  The trie nodes and the root check of
    `StorageProofChecker::new` are the header chain's, which hands the
    verifiers an accepted proof. -/

namespace ParityBridge

namespace StorageProof

/-- `storage_proof::Error`, the one the modelled checker raises. -/
inductive Error where
  | unusedNodesInTheProof
deriving DecidableEq, Repr

/-- `StorageProofChecker`: the pairs the proof proves, and the keys read so
    far, last read first. -/
structure StorageProofChecker (K V : Type) [DecidableEq K] where
  storage : AList fun _ : K => V
  recorded : List K

namespace StorageProofChecker

variable {K V : Type} [DecidableEq K]

/-- `StorageProofChecker::new` on an accepted proof: nothing read yet. -/
def new (storage : AList fun _ : K => V) : StorageProofChecker K V :=
  ⟨storage, []⟩

/-- `read_value`: the value the proof holds under `key`, if any; the read is
    recorded. -/
def readValue (c : StorageProofChecker K V) (key : K) :
    Except Error (Option V) × StorageProofChecker K V :=
  (.ok (c.storage.lookup key), { c with recorded := key :: c.recorded })

/-- `ensure_no_unused_nodes`: every pair of the proof was read. -/
def ensureNoUnusedNodes (c : StorageProofChecker K V) : Except Error Unit :=
  if c.storage.keys.all (· ∈ c.recorded) then .ok () else .error .unusedNodesInTheProof

@[simp] theorem readValue_fst (c : StorageProofChecker K V) (key : K) :
    (c.readValue key).1 = .ok (c.storage.lookup key) := rfl

@[simp] theorem readValue_snd (c : StorageProofChecker K V) (key : K) :
    (c.readValue key).2 = ⟨c.storage, key :: c.recorded⟩ := rfl

theorem ensureNoUnusedNodes_eq_ok_iff (c : StorageProofChecker K V) :
    c.ensureNoUnusedNodes = .ok () ↔ ∀ key ∈ c.storage.keys, key ∈ c.recorded := by
  rw [ensureNoUnusedNodes]
  split_ifs with h
  · exact ⟨fun _ key hkey => by simpa using List.all_eq_true.mp h key hkey, fun _ => rfl⟩
  · refine ⟨fun hne => (nomatch hne), fun hall => absurd ?_ h⟩
    exact List.all_eq_true.mpr fun key hkey => by simpa using hall key hkey

end StorageProofChecker

end StorageProof

end ParityBridge

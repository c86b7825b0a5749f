import Tapyrus.Validation.Mempool
import Tapyrus.TxMemPoolCheck
/-!
# The pool over every run of the node

The node changes its pool in these ways only:
- `AcceptToMemoryPoolWorker`, the one caller of `addUnchecked`, which first
  evicts what the new transaction replaces and may trim afterwards;
- `removeRecursive`;
- `removeForBlock`, when a block connects;
- `LimitMempoolSize`;
- `PrioritiseTransaction` and `ClearPrioritisation`.

`Reachable` closes the empty pool under these operations. Each pool it
reaches passes the assertions of `CTxMemPool::check` (`Consistent`).

The worker's step takes one premise. It is the assumption the source states
at its call of `LimitMempoolSize` (validation.cpp): "AcceptToMemoryPool/
addUnchecked all assume that new mempool entries have no in-mempool children".
A pool transaction spending an output of the new one would need it as a
parent, and `addUnchecked` does not look for such spenders. Everything else
the worker needs, it checks itself. The hash is not in the pool. Every pool
transaction spending one of its inputs is a conflict, which `checkReplacement`
evicts together with its descendants. `removeForReorg` and
`UpdateTransactionsFromBlock` are not modelled: they read the chain view.
-/

namespace Tapyrus

open Lib CTxMemPool

/-! ## The descendants of the conflicts -/

namespace CTxMemPool

theorem descendantsLoop_superset (pool : CTxMemPool) :
    ∀ fuel stage setDescendants, ∀ x ∈ setDescendants, x ∈ pool.descendantsLoop fuel stage setDescendants := by
  intro fuel
  induction fuel with
  | zero => exact fun _ _ _ hx => hx
  | succ fuel ih =>
    intro stage s x hx
    cases stage with
    | nil => exact hx
    | cons it stage =>
      rw [descendantsLoop]
      exact ih _ _ x (List.mem_insert_of_mem hx)

theorem size_ne_zero {pool : CTxMemPool} {it : uint256} (hit : pool.exists it = true) : pool.size ≠ 0 := by
  have hmem : it ∈ pool.mapTx := AList.lookup_isSome.1 hit
  intro h0
  rw [size, List.length_eq_zero_iff] at h0
  rw [AList.mem_keys, AList.keys, h0] at hmem
  simp at hmem

/-- A pool entry is among its own descendants: the pool holds it, so the
loop's fuel, the pool's size, is not zero. -/
theorem mem_CalculateDescendants_self {pool : CTxMemPool} {it : uint256} (hit : pool.exists it = true)
    (setDescendants : List uint256) : it ∈ pool.CalculateDescendants it setDescendants := by
  unfold CalculateDescendants
  split
  · exact descendantsLoop_superset pool _ _ _ it ‹_›
  · obtain ⟨fuel, hfuel⟩ := Nat.exists_eq_succ_of_ne_zero (size_ne_zero hit)
    rw [hfuel, descendantsLoop]
    exact descendantsLoop_superset pool _ _ _ it List.mem_insert_self

theorem mem_CalculateDescendants_of_mem (pool : CTxMemPool) (it : uint256) {s : List uint256} {x : uint256}
    (hx : x ∈ s) : x ∈ pool.CalculateDescendants it s :=
  descendantsLoop_superset pool _ _ _ x hx

/-- The descendants of a list of entries, gathered one after another: each
entry of the pool among them is there. -/
theorem mem_foldl_CalculateDescendants (pool : CTxMemPool) (l : List uint256) :
    ∀ s x, x ∈ s ∨ (x ∈ l ∧ pool.exists x = true) → x ∈ l.foldl (fun s it => pool.CalculateDescendants it s) s := by
  induction l with
  | nil =>
    rintro s x (hx | ⟨hx, -⟩)
    · exact hx
    · cases hx
  | cons it l ih =>
    intro s x hx
    rw [List.foldl_cons]
    refine ih _ x ?_
    rcases hx with hx | ⟨hmem, hex⟩
    · exact .inl (mem_CalculateDescendants_of_mem pool it hx)
    · rcases List.mem_cons.1 hmem with rfl | hmem
      · exact .inl (mem_CalculateDescendants_self hex s)
      · exact .inr ⟨hmem, hex⟩

end CTxMemPool

/-! ## What the worker evicts -/

/-- `CheckConflictsInMempool` collects the spender of every input the pool
has one for. -/
theorem CheckConflictsInMempool_spec (fEnableReplacement : Bool) (pool : CTxMemPool) (vin : List CTxIn) :
    ∀ setConflicts r, CheckConflictsInMempool fEnableReplacement pool setConflicts vin = .ok r →
      ∀ h, h ∈ setConflicts ∨ (∃ txin ∈ vin, pool.mapNextTx.lookup txin.prevout = some h) → h ∈ r := by
  induction vin with
  | nil =>
    rintro acc r hr h (hh | ⟨_, hin, -⟩)
    · cases hr
      exact hh
    · cases hin
  | cons txin rest ih =>
    intro acc r hr h hh
    rw [CheckConflictsInMempool] at hr
    -- the rest of the loop starts from conflicts holding the input's spender
    have hrest : ∀ acc', (∀ x, x ∈ acc ∨ pool.mapNextTx.lookup txin.prevout = some x → x ∈ acc') →
        CheckConflictsInMempool fEnableReplacement pool acc' rest = .ok r → h ∈ r := by
      intro acc' hacc hr'
      refine ih acc' r hr' h ?_
      rcases hh with hh | ⟨t, ht, hlook⟩
      · exact .inl (hacc h (.inl hh))
      · rcases List.mem_cons.1 ht with rfl | ht
        · exact .inl (hacc h (.inr hlook))
        · exact .inr ⟨t, ht, hlook⟩
    split at hr
    · rename_i hc hlook
      split at hr
      · refine hrest acc (fun x hx => ?_) hr
        rcases hx with hx | hx
        · exact hx
        · rw [hlook] at hx
          cases hx
          assumption
      · obtain ⟨-, hr⟩ := ite_error_eq_ok hr
        refine hrest _ (fun x hx => ?_) hr
        rcases hx with hx | hx
        · exact List.mem_insert_of_mem hx
        · rw [hlook] at hx
          cases hx
          exact List.mem_insert_self
    · rename_i hlook
      refine hrest acc (fun x hx => ?_) hr
      rcases hx with hx | hx
      · exact hx
      · rw [hlook] at hx
        cases hx

/-- The conflicts the replacement loop keeps: those the pool holds. -/
theorem conflictLoop_spec (nBytesPerSigOp : Nat) (pool : CTxMemPool) (newFeeRate : Int) (conflicts : List uint256) :
    ∀ acc r, conflictLoop nBytesPerSigOp pool newFeeRate conflicts acc = .ok r →
      ∀ h, h ∈ acc.1 ∨ (h ∈ conflicts ∧ pool.exists h = true) → h ∈ r.1 := by
  induction conflicts with
  | nil =>
    rintro acc r hr h (hh | ⟨hh, -⟩)
    · cases hr
      exact hh
    · cases hh
  | cons c rest ih =>
    rintro ⟨a, b, k⟩ r hr h hh
    rw [conflictLoop] at hr
    split at hr
    · -- not in the pool: skipped
      rename_i hnone
      refine ih _ r hr h (hh.imp_right fun ⟨hmem, hex⟩ => ⟨?_, hex⟩)
      rcases List.mem_cons.1 hmem with rfl | hmem
      · simp [CTxMemPool.exists, hnone] at hex
      · exact hmem
    · obtain ⟨-, hr⟩ := ite_error_eq_ok hr
      refine ih _ r hr h ?_
      rcases hh with hh | ⟨hmem, hex⟩
      · exact .inl (List.mem_insert_of_mem hh)
      · rcases List.mem_cons.1 hmem with rfl | hmem
        · exact .inl List.mem_insert_self
        · exact .inr ⟨hmem, hex⟩

/-- A replacement that passes evicts every conflict the pool holds. -/
theorem checkReplacement_spec {S : MempoolEnv} {pool : CTxMemPool} {tx : CTransaction} {setConflicts : List uint256}
    {nModifiedFees : Int} {nSize : Nat} {r : List uint256 × Int}
    (hr : checkReplacement S pool tx setConflicts nModifiedFees nSize = .ok r) :
    ∀ c ∈ setConflicts, pool.exists c = true → c ∈ r.1 := by
  unfold checkReplacement at hr
  dsimp only at hr
  obtain ⟨⟨sic, scp, cnt⟩, hloop, hr⟩ := bind_eq_ok hr
  obtain ⟨-, hr⟩ := ite_error_eq_ok hr
  obtain ⟨-, hr⟩ := ite_error_eq_ok hr
  obtain ⟨-, hr⟩ := ite_error_eq_ok hr
  obtain ⟨-, hr⟩ := ite_error_eq_ok hr
  cases hr
  intro c hc hex
  exact mem_foldl_CalculateDescendants pool sic [] c
    (.inr ⟨conflictLoop_spec _ pool _ setConflicts _ _ hloop c (.inr ⟨hc, hex⟩), hex⟩)

/-- What `PreChecks` hands on: the transaction under its id, which the pool
does not hold, and an eviction list holding every pool transaction that
spends one of its inputs. -/
theorem PreChecks_staged {S : MempoolEnv} {pool : CTxMemPool} {coinsTip : CCoinsViewCache} {tx : CTransaction}
    {flags : MempoolAcceptanceFlags} {nAbsurdFee : Int} {staged : Staged}
    (h : PreChecks S pool coinsTip tx flags nAbsurdFee = .ok (.ok staged)) :
    staged.hash = tx.GetHashMalFix S.E.C ∧ staged.entry.tx = tx ∧ pool.exists staged.hash = false ∧
      ∀ txin ∈ tx.vin, ∀ h, pool.mapNextTx.lookup txin.prevout = some h → pool.exists h = true →
        h ∈ staged.allConflicting := by
  unfold PreChecks at h
  dsimp only at h
  -- the checks of the transaction alone
  obtain ⟨_, -, h⟩ := bind_eq_ok h
  obtain ⟨-, h⟩ := ite_error_eq_ok h
  split at h
  · cases h
  obtain ⟨-, h⟩ := ite_error_eq_ok h
  obtain ⟨-, h⟩ := ite_error_eq_ok h
  -- against the pool
  obtain ⟨hnew, h⟩ := ite_error_eq_ok h
  obtain ⟨setConflicts, hconf, h⟩ := bind_eq_ok h
  obtain ⟨_, -, h⟩ := bind_eq_ok h
  split at h
  · cases h
  -- against the coins, and the fees
  obtain ⟨-, h⟩ := ite_error_eq_ok h
  split at h
  rotate_left
  · cases h
  obtain ⟨_, -, h⟩ := bind_eq_ok h
  obtain ⟨-, h⟩ := ite_error_eq_ok h
  obtain ⟨_, -, h⟩ := bind_eq_ok h
  obtain ⟨-, h⟩ := ite_error_eq_ok h
  obtain ⟨-, h⟩ := ite_error_eq_ok h
  obtain ⟨-, h⟩ := ite_error_eq_ok h
  split at h
  · cases h
  obtain ⟨-, h⟩ := ite_error_eq_ok h
  have hconflict := CheckConflictsInMempool_spec _ pool tx.vin [] setConflicts hconf
  -- with no conflict nothing is evicted, and no pool transaction spends an input
  split at h
  · rename_i hempty
    obtain ⟨_, -, h⟩ := bind_eq_ok h
    obtain ⟨_, -, h⟩ := bind_eq_ok h
    obtain ⟨_, -, h⟩ := bind_eq_ok h
    obtain ⟨_, -, h⟩ := bind_eq_ok h
    cases h
    refine ⟨rfl, rfl, by simpa using hnew, fun txin hin h hlook _ => ?_⟩
    have := hconflict h (.inr ⟨txin, hin, hlook⟩)
    simp [List.isEmpty_iff.1 hempty] at this
  · obtain ⟨⟨ac, fee⟩, hrep, h⟩ := bind_eq_ok h
    obtain ⟨_, -, h⟩ := bind_eq_ok h
    obtain ⟨_, -, h⟩ := bind_eq_ok h
    obtain ⟨_, -, h⟩ := bind_eq_ok h
    cases h
    refine ⟨rfl, rfl, by simpa using hnew, fun txin hin h hlook hex => ?_⟩
    exact checkReplacement_spec hrep h (hconflict h (.inr ⟨txin, hin, hlook⟩)) hex

/-! ## The worker keeps the pool consistent -/

theorem consistent_LimitMempoolSize {S : MempoolEnv} {pool : CTxMemPool} (hp : Consistent S.nBytesPerSigOp pool) :
    Consistent S.nBytesPerSigOp (LimitMempoolSize S pool) :=
  consistent_TrimToSize _ (consistent_Expire _ hp _) _ _ _

/-- The pool the worker leaves passes the check, when the one it found did
and no pool transaction spends an output of the new one. -/
theorem consistent_AcceptToMemoryPoolWorker {S : MempoolEnv} {pool : CTxMemPool} {coinsTip : CCoinsViewCache}
    {tx : CTransaction} {flags : MempoolAcceptanceFlags} {nAbsurdFee : Int} {pool' : CTxMemPool}
    (hp : Consistent S.nBytesPerSigOp pool)
    (houts : ∀ o : COutPoint, o.hashMalFix = tx.GetHashMalFix S.E.C → pool.mapNextTx.lookup o = none)
    (h : AcceptToMemoryPoolWorker S pool coinsTip tx flags nAbsurdFee = .ok (.accepted pool')) :
    Consistent S.nBytesPerSigOp pool' := by
  unfold AcceptToMemoryPoolWorker at h
  obtain ⟨r, hpre, h⟩ := bind_eq_ok h
  cases r with
  | error prevout => cases h
  | ok staged =>
    dsimp only at h
    obtain ⟨hhash, htx, hnew, hconf⟩ := PreChecks_staged hpre
    -- the replacement: the conflicts and their descendants go, the transaction comes in
    have hadd : Consistent S.nBytesPerSigOp ((pool.RemoveStaged S.nBytesPerSigOp staged.allConflicting false).addUnchecked
        S.nBytesPerSigOp staged.hash staged.entry staged.setAncestors) := by
      refine consistent_addUnchecked_RemoveStaged _ hp _ _ hnew (fun txin hin h hlook => ?_) (hhash ▸ houts)
      have hex : pool.exists h = true := by
        obtain ⟨ptx, hptx, -⟩ := (hp.nextTx _ h).1 hlook
        simp [exists_eq_isSome_get, hptx]
      exact hconf txin (htx ▸ hin) h hlook hex
    split at h
    · cases h
      exact hp
    · split at h
      · split at h
        · cases h
        · cases h
          exact consistent_LimitMempoolSize hadd
      · cases h
        exact hadd

/-! ## Every run -/

/-- The pools the node reaches from an empty one through the operations it
has on its pool. The worker's step takes the source's assumption that the
new transaction has no children in the pool. -/
inductive Reachable (n : Nat) : CTxMemPool → Prop where
  | empty (nTime : Int) : Reachable n (CTxMemPool.empty nTime)
  | accept {pool pool' : CTxMemPool} (S : MempoolEnv) (coinsTip : CCoinsViewCache) (tx : CTransaction)
      (flags : MempoolAcceptanceFlags) (nAbsurdFee : Int) : Reachable n pool → S.nBytesPerSigOp = n →
      (∀ o : COutPoint, o.hashMalFix = tx.GetHashMalFix S.E.C → pool.mapNextTx.lookup o = none) →
      AcceptToMemoryPoolWorker S pool coinsTip tx flags nAbsurdFee = .ok (.accepted pool') → Reachable n pool'
  | removeRecursive {pool : CTxMemPool} (C : Crypto) (tx : CTransaction) :
      Reachable n pool → Reachable n (pool.removeRecursive n C tx)
  | removeForBlock {pool : CTxMemPool} (C : Crypto) (vtx : List CTransaction) (nTime : Int) :
      Reachable n pool → Reachable n (pool.removeForBlock n C vtx nTime)
  | limit {pool : CTxMemPool} (S : MempoolEnv) :
      Reachable n pool → S.nBytesPerSigOp = n → Reachable n (LimitMempoolSize S pool)
  | prioritise {pool : CTxMemPool} (hash : uint256) (nFeeDelta : Int) :
      Reachable n pool → Reachable n (pool.PrioritiseTransaction n hash nFeeDelta)
  | clearPrioritisation {pool : CTxMemPool} (hash : uint256) :
      Reachable n pool → Reachable n (pool.ClearPrioritisation hash)

/-- Every pool the node reaches passes the assertions of `CTxMemPool::check`
on its indexes and its total size: by induction on the run, one
preservation lemma per operation. -/
theorem Reachable.consistent {n : Nat} {pool : CTxMemPool} (h : Reachable n pool) : Consistent n pool := by
  induction h with
  | empty nTime => exact consistent_empty n nTime
  | accept S coinsTip tx flags nAbsurdFee _ hS houts hacc ih =>
    subst hS
    exact consistent_AcceptToMemoryPoolWorker ih houts hacc
  | removeRecursive C tx _ ih => exact consistent_removeRecursive n C ih tx
  | removeForBlock C vtx nTime _ ih => exact consistent_removeForBlock n C ih vtx nTime
  | limit S _ hS ih =>
    subst hS
    exact consistent_LimitMempoolSize ih
  | prioritise hash nFeeDelta _ ih => exact ih.of_sameBook n (sameBook_PrioritiseTransaction n _ hash nFeeDelta)
  | clearPrioritisation hash _ ih => exact ih.of_sameBook n (sameBook_ClearPrioritisation n _ hash)

/-- The worker's run on the NFT transaction, with no memory pressure. -/
theorem AcceptToMemoryPoolWorker_nft :
    AcceptToMemoryPoolWorker (nftEnv (fun _ => 0) (fun _ => 0)) (CTxMemPool.empty 0) nftChainView nftTx .NONE 0 =
      .ok (.accepted nftPool) := by
  have hexpiry : ∀ e ∈ nftPool.mapTx.entries, (0 : Int) - 336 * 60 * 60 ≤ e.2.nTime := by decide +kernel
  have hlimit : LimitMempoolSize (nftEnv (fun _ => 0) (fun _ => 0)) nftPool = nftPool :=
    LimitMempoolSize_eq_self _ _ hexpiry (Nat.zero_le _)
  have hexists : nftPool.exists (nftTx.GetHashMalFix truncCrypto) = true := exists_addUnchecked _ _ _ _ _
  have hpool : (CTxMemPool.empty 0).addUnchecked (nftEnv (fun _ => 0) (fun _ => 0)).nBytesPerSigOp
      (nftTx.GetHashMalFix truncCrypto) nftEntry [] = nftPool := rfl
  unfold AcceptToMemoryPoolWorker
  rw [PreChecks_nft, ok_bind]
  dsimp only
  rw [if_neg (by decide), if_pos (by decide)]
  simp only [RemoveStaged_nil, hpool, hlimit, hexists, Bool.not_true, Bool.false_eq_true, if_false]
  rfl

/-- A run of two steps: the NFT transaction enters the empty pool, then a
block confirms it. -/
theorem Reachable.consistent_nft_block :
    Reachable 20 ((nftPool).removeForBlock 20 truncCrypto [nftTx] 1) ∧
      Consistent 20 ((nftPool).removeForBlock 20 truncCrypto [nftTx] 1) :=
  have hrun : Reachable 20 ((nftPool).removeForBlock 20 truncCrypto [nftTx] 1) :=
    .removeForBlock truncCrypto [nftTx] 1
      (.accept (nftEnv (fun _ => 0) (fun _ => 0)) nftChainView nftTx .NONE 0 (.empty 0) rfl
        (fun _ _ => rfl) AcceptToMemoryPoolWorker_nft)
  ⟨hrun, Reachable.consistent hrun⟩

end Tapyrus

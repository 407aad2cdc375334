import CoppiceWallet.Mempool.Announcements

/-! # A mempool payment reaches the accounts it pays -/

namespace CoppiceWallet.Mempool

open CoppiceWallet.Lib

variable {Raw Tx Txid Account Keys E : Type} [DecidableEq Txid] [LinearOrder Account]

variable (E) in
/-- Each transaction is announced once, nothing is done for a foreign one, and what is announced
belongs to the wallet. -/
structure RightlyAnnounced (lib : TransactionLibrary Raw Tx Txid Account Keys)
    (s : Observer Txid Account Keys) : Prop where
  once : (announcedTxids s).Nodup
  foreign : ∀ d : Delivery Raw E, (∀ tx, lib.read d.rawTx = some tx → Foreign lib s tx) →
    (handleMempoolTx lib d s).wallet = s.wallet ∧
      ∀ action ∈ done lib d s, ∃ txid at', action = .foundForeign txid at'
  belongs : ∀ (d : Delivery Raw E) (event : MempoolTxEvent Txid Account),
    .emitted event ∈ done lib d s → Pending s.wallet event.txid ∨
      ∃ accounts, done lib d s = [.stored event.txid accounts,.emitted event]

variable (E) in
/-- After a delivery whose calls all succeed, each account that the transaction pays has its row and
its announcement. -/
def PaymentsReach (lib : TransactionLibrary Raw Tx Txid Account Keys)
    (s : Observer Txid Account Keys) : Prop :=
  ∀ (d : Delivery Raw E) (tx : Tx) (account : Account), lib.read d.rawTx = some tx →
    AllSucceed d → account ∈ paidAccounts lib s tx →
    NotLatelyForeign s (lib.txid tx) d.checkedAt →
    StoredFor (handleMempoolTx lib d s).wallet (lib.txid tx) account ∧
      AnnouncedTo (handleMempoolTx lib d s) (lib.txid tx) account

omit [DecidableEq Txid] [LinearOrder Account] in
theorem announcedOnce_initial (relevant : List Txid) (wallet : Wallet Txid Account Keys)
    (height : Nat) : AnnouncedOnce relevant (initialObserver wallet height) where
  holds := SeenCache.holds_new 2048
  maxLen := rfl
  nodup := List.nodup_nil
  relevant := List.nil_subset relevant

omit [DecidableEq Txid] [LinearOrder Account] in
theorem unmatchedSound_initial (wallet : Wallet Txid Account Keys) (height : Nat) :
    UnmatchedSound (initialObserver wallet height) where
  sound := TtlCache.sound_new 2048 unmatchedTxidTtl
  ttl := rfl

omit [DecidableEq Txid] in
theorem paidAccountsTold_initial (lib : TransactionLibrary Raw Tx Txid Account Keys)
    (wallet : Wallet Txid Account Keys) (height : Nat) :
    PaidAccountsTold lib (initialObserver wallet height) := by
  intro tx htx
  cases htx

variable {relevant : List Txid} {s s' : Observer Txid Account Keys}
  {lib : TransactionLibrary Raw Tx Txid Account Keys}

theorem announcedOnce_step (hlen : relevant.length < 2048)
    (event : ObserverEvent Raw Txid Account Keys E) (hs : AnnouncedOnce relevant s)
    (hwithin : Within lib relevant event s) (hstep : observerStep lib event s = .ok s') :
    AnnouncedOnce relevant s' := by
  cases event with
  | deliver d =>
    cases hstep
    exact (handleMempoolTx_handled lib d s).announcedOnce hlen hwithin hs
  | evolve wallet =>
    cases hstep
    exact hs.congr rfl rfl
  | reconnect height =>
    cases hstep
    exact hs.congr rfl rfl

theorem unmatchedSound_step (event : ObserverEvent Raw Txid Account Keys E) (hs : UnmatchedSound s)
    (hstep : observerStep lib event s = .ok s') : UnmatchedSound s' := by
  cases event with
  | deliver d =>
    cases hstep
    exact (handleMempoolTx_handled lib d s).unmatchedSound hs
  | evolve wallet =>
    cases hstep
    exact hs.mono rfl (List.Subset.refl _)
  | reconnect height =>
    cases hstep
    exact hs.mono rfl (List.Subset.refl _)

theorem paidAccountsTold_step (event : ObserverEvent Raw Txid Account Keys E)
    (hs : PaidAccountsTold lib s) (honce : AnnouncedOnce relevant s)
    (hfound : FurtherAccountsFound lib event s) (hstep : observerStep lib event s = .ok s') :
    PaidAccountsTold lib s' := by
  cases event with
  | deliver d =>
    cases hstep
    exact (handleMempoolTx_handled lib d s).paidAccountsTold hfound honce hs
  | evolve wallet =>
    cases hstep
    exact hs.kept rfl hfound
  | reconnect height =>
    cases hstep
    exact hs.kept rfl hfound

/-- Unless it was found foreign lately, a transaction that pays the wallet is announced after a
delivery whose calls all succeed. -/
theorem Handled.announced_of_paid {d : Delivery Raw E} (h : Handled lib d s s')
    (honce : AnnouncedOnce relevant s) (hsound : UnmatchedSound s) {tx : Tx} {account : Account}
    (hread : lib.read d.rawTx = some tx) (hall : AllSucceed d)
    (hpaid : account ∈ paidAccounts lib s tx)
    (hforeign : NotLatelyForeign s (lib.txid tx) d.checkedAt) :
    lib.txid tx ∈ announcedTxids s' ∧ paidAccounts lib s' tx = paidAccounts lib s tx := by
  cases h with
  | idle h =>
    rcases h tx hread with hseen | hlookup
    · exact ⟨(honce.holds.contains_iff _).mp hseen,rfl⟩
    · exact absurd hall.lookup hlookup
  | skipped tx' hread' h =>
    cases hread.symm.trans hread'
    rcases h with hlately | hdecrypt | hstore
    · obtain ⟨expiresAt,hnow,at',hmem,heq⟩ := hsound.sound.found hlately
      have hold := hforeign at' hmem
      omega
    · exact absurd hall.trialDecrypt hdecrypt
    · exact absurd hall.store hstore
  | foreign tx' hread' h =>
    cases hread.symm.trans hread'
    simp [h] at hpaid
  | known tx' hread' hunseen hlookup hpending h =>
    cases hread.symm.trans hread'
    exact ⟨by simp [emitWalletRelevantTx,announcement],rfl⟩
  | stored tx' accounts c hread' hunseen hpaid' haccounts hcache =>
    cases hread.symm.trans hread'
    constructor
    · simp [emitWalletRelevantTx,announcement]
    · simp [paidAccounts,emitWalletRelevantTx,storedRows_ufvks]

theorem paymentsReach_of (honce : AnnouncedOnce relevant s) (hsound : UnmatchedSound s)
    (hs : PaidAccountsTold lib s) : PaymentsReach E lib s := by
  intro d tx account hread hall hpaid hforeign
  have hhandled := handleMempoolTx_handled lib d s
  have hfound : FurtherAccountsFound lib (.deliver d) s :=
    fun _ _ _ _ _ _ => ⟨hall.trialDecrypt,hall.store⟩
  have htold := hhandled.paidAccountsTold hfound honce hs
  obtain ⟨hannounced,hsame⟩ := hhandled.announced_of_paid honce hsound hread hall hpaid hforeign
  exact htold tx hannounced account (hsame ▸ hpaid)

/-- Over every run with fewer than 2048 different transactions of the wallet, the announcements are
right; and payments reach their accounts in every run in which the calls that would find a further
account of a transaction known already succeed. -/
theorem mempoolPayments_reach (lib : TransactionLibrary Raw Tx Txid Account Keys)
    {relevant : List Txid} (hlen : relevant.length < 2048) (wallet : Wallet Txid Account Keys)
    (height : Nat) :
    (∀ s, GuardedRuns (observerStep (E := E) lib) (Within lib relevant)
      (initialObserver wallet height) s → RightlyAnnounced E lib s) ∧
    (∀ s, GuardedRuns (observerStep (E := E) lib)
      (fun event s => Within lib relevant event s ∧ FurtherAccountsFound lib event s)
      (initialObserver wallet height) s → PaymentsReach E lib s) := by
  constructor
  · intro s hrun
    have honce : AnnouncedOnce relevant s :=
      hrun.invariant (fun event _ _ hs hwithin hstep => announcedOnce_step hlen event hs hwithin hstep)
        (announcedOnce_initial relevant wallet height)
    constructor
    · exact honce.nodup
    · intro d hforeign
      exact (handleMempoolTx_handled lib d s).foreign_untouched hforeign
    · intro d event hevent
      exact (handleMempoolTx_handled lib d s).announced hevent
  · intro s hrun
    have hinv : AnnouncedOnce relevant s ∧ UnmatchedSound s ∧ PaidAccountsTold lib s := by
      apply hrun.invariant (P := fun s =>
        AnnouncedOnce relevant s ∧ UnmatchedSound s ∧ PaidAccountsTold lib s)
      · intro event s s' hs hguard hstep
        exact ⟨announcedOnce_step hlen event hs.1 hguard.1 hstep,
          unmatchedSound_step event hs.2.1 hstep,
          paidAccountsTold_step event hs.2.2 hs.1 hguard.2 hstep⟩
      · exact ⟨announcedOnce_initial relevant wallet height,unmatchedSound_initial wallet height,
          paidAccountsTold_initial lib wallet height⟩
    exact paymentsReach_of hinv.1 hinv.2.1 hinv.2.2

/-- Transaction 7 pays account 1. -/
def sampleLibrary : TransactionLibrary Nat Nat Nat Nat Unit where
  read := some
  txid := id
  decryptTransaction := fun _ _ tx => ⟨[],if tx = 7 then [1] else [],[]⟩
  decrypt_txid := fun _ _ h _ _ => congrArg (fun tx : Nat =>
    (⟨[],if tx = 7 then [1] else [],[]⟩ : DecryptedTransaction Nat)) h

/-- The wallet that has the transaction as account 0 sent it. -/
def senderWallet : Wallet Nat Nat Unit := ⟨[⟨7,none⟩],[⟨0,7,none⟩],()⟩

def sampleDelivery (store : Except String Unit) : Delivery Nat String :=
  ⟨7,0,0,.ok (),.ok (),store⟩

theorem sample_within (store : Except String Unit) (s : Observer Nat Nat Unit) :
    Within sampleLibrary [7] (.deliver (sampleDelivery store)) s := by
  intro tx hread _
  have htx : 7 = tx := by simpa [sampleLibrary,sampleDelivery] using hread
  simp [← htx,sampleLibrary]

theorem mempoolPayments_reach_failedStore :
    let s := handleMempoolTx sampleLibrary (sampleDelivery (.error "locked"))
      (initialObserver ⟨[],[],()⟩ 100)
    RightlyAnnounced String sampleLibrary s ∧ PaymentsReach String sampleLibrary s := by
  have h := mempoolPayments_reach (E := String) sampleLibrary
    (show [7].length < 2048 by decide) ⟨[],[],()⟩ 100
  constructor
  · exact h.1 _ (.tail (.deliver (sampleDelivery (.error "locked"))) (.refl _)
      (sample_within _ _) rfl)
  · apply h.2
    apply GuardedRuns.tail (.deliver (sampleDelivery (.error "locked"))) (.refl _) _ rfl
    refine ⟨sample_within _ _,?_⟩
    intro tx _ _ _ hpending
    simp [Pending,matchedUnmined,unminedAccounts,initialObserver,sortedSet] at hpending

/-- The store of a known transaction fails, account 0 is told, and account 1 never is. -/
theorem failedStore_hidesRecipient :
    ∃ s, GuardedRuns (observerStep (E := String) sampleLibrary) (Within sampleLibrary [7])
      (initialObserver senderWallet 100) s ∧ ¬ PaymentsReach String sampleLibrary s := by
  refine ⟨handleMempoolTx sampleLibrary (sampleDelivery (.error "locked"))
    (initialObserver senderWallet 100),?_,?_⟩
  · exact .tail (.deliver (sampleDelivery (.error "locked"))) (.refl _) (sample_within _ _) rfl
  · intro hreach
    have hactions : (handleMempoolTx sampleLibrary (sampleDelivery (.error "locked"))
        (initialObserver senderWallet 100)).actions = [.emitted ⟨7,[0],true⟩] := by decide
    have hlater := hreach (sampleDelivery (.ok ())) 7 1 rfl ⟨rfl,rfl,rfl⟩ (by decide) (by
      intro at' hforeign
      simp [hactions] at hforeign)
    have hmissing : ¬ StoredFor (handleMempoolTx sampleLibrary (sampleDelivery (.ok ()))
        (handleMempoolTx sampleLibrary (sampleDelivery (.error "locked"))
          (initialObserver senderWallet 100))).wallet (sampleLibrary.txid 7) 1 := by
      unfold StoredFor
      decide
    exact hmissing hlater.1

end CoppiceWallet.Mempool

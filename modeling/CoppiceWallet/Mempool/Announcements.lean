import CoppiceWallet.Mempool.Observer
import Mathlib.Data.List.Perm.Subperm

/-! # Who hears of a mempool payment -/

namespace CoppiceWallet.Mempool

open CoppiceWallet.Lib

variable {Raw Tx Txid Account Keys E : Type} [DecidableEq Txid] [LinearOrder Account]

/-- The accounts that the transaction pays through a shielded output, under the wallet's keys. -/
def paidAccounts (lib : TransactionLibrary Raw Tx Txid Account Keys)
    (s : Observer Txid Account Keys) (tx : Tx) : List Account :=
  let decrypted := lib.decryptTransaction s.wallet.ufvks s.chainTipHeight tx
  sortedSet (decrypted.saplingOutputs ++ decrypted.orchardOutputs ++ decrypted.ironwoodOutputs)

/-- The wallet has the transaction as unmined. -/
def Pending (wallet : Wallet Txid Account Keys) (txid : Txid) : Prop :=
  matchedUnmined wallet txid = true ∨ unminedAccounts wallet txid ≠ []

def StoredFor (wallet : Wallet Txid Account Keys) (txid : Txid) (account : Account) : Prop :=
  ∃ row ∈ wallet.vTransactions, row.txid = txid ∧ row.accountUuid = account

def announcement : ObserverAction Txid Account → Option (MempoolTxEvent Txid Account)
  | .emitted event => some event
  | _ => none

def announcements (s : Observer Txid Account Keys) : List (MempoolTxEvent Txid Account) :=
  s.actions.filterMap announcement

def announcedTxids (s : Observer Txid Account Keys) : List Txid := (announcements s).map (·.txid)

def AnnouncedTo (s : Observer Txid Account Keys) (txid : Txid) (account : Account) : Prop :=
  ∃ event ∈ announcements s, event.txid = txid ∧ account ∈ event.accountUuids

/-- What the delivery makes the observer do. -/
def done (lib : TransactionLibrary Raw Tx Txid Account Keys) (d : Delivery Raw E)
    (s : Observer Txid Account Keys) : List (ObserverAction Txid Account) :=
  (handleMempoolTx lib d s).actions.drop s.actions.length

/-- Neither known to the wallet as unmined nor paying one of its accounts. -/
def Foreign (lib : TransactionLibrary Raw Tx Txid Account Keys) (s : Observer Txid Account Keys)
    (tx : Tx) : Prop :=
  ¬ Pending s.wallet (lib.txid tx) ∧ paidAccounts lib s tx = []

/-- The delivery calls nothing that fails. -/
structure AllSucceed (d : Delivery Raw E) : Prop where
  lookup : d.lookup = .ok ()
  trialDecrypt : d.trialDecrypt = .ok ()
  store : d.store = .ok ()

/-- The transaction was not found foreign within the last ten seconds. -/
def NotLatelyForeign (s : Observer Txid Account Keys) (txid : Txid) (now : Nat) : Prop :=
  ∀ at', ObserverAction.foundForeign txid at' ∈ s.actions → at' + unmatchedTxidTtl ≤ now

/-- The observer after the delivery, in each of the cases. -/
inductive Handled (lib : TransactionLibrary Raw Tx Txid Account Keys) (d : Delivery Raw E)
    (s : Observer Txid Account Keys) : Observer Txid Account Keys → Prop
  /-- Nothing to read, announced already, or a failed lookup. -/
  | idle (h : ∀ tx, lib.read d.rawTx = some tx →
      s.seenCache.contains (lib.txid tx) = true ∨ d.lookup ≠ .ok ()) : Handled lib d s s
  /-- Not the wallet's so far: found foreign lately, or a failed call. -/
  | skipped (tx : Tx) (hread : lib.read d.rawTx = some tx)
      (h : (s.unmatchedCache.containsUnexpired (lib.txid tx) d.checkedAt).1 = true ∨
        d.trialDecrypt ≠ .ok () ∨ d.store ≠ .ok ()) :
      Handled lib d s { s with
        unmatchedCache := (s.unmatchedCache.containsUnexpired (lib.txid tx) d.checkedAt).2 }
  | foreign (tx : Tx) (hread : lib.read d.rawTx = some tx) (h : paidAccounts lib s tx = []) :
      Handled lib d s { s with
        unmatchedCache :=
          (s.unmatchedCache.containsUnexpired (lib.txid tx) d.checkedAt).2.insert (lib.txid tx)
            d.unmatchedAt
        actions := s.actions ++ [.foundForeign (lib.txid tx) d.unmatchedAt] }
  /-- Known to the wallet, and announced for the accounts that the lookup found. -/
  | known (tx : Tx) (hread : lib.read d.rawTx = some tx)
      (hunseen : s.seenCache.contains (lib.txid tx) = false) (hlookup : d.lookup = .ok ())
      (hpending : Pending s.wallet (lib.txid tx))
      (h : (∀ account ∈ paidAccounts lib s tx,
          account ∈ unminedAccounts s.wallet (lib.txid tx)) ∨
        d.trialDecrypt ≠ .ok () ∨ d.store ≠ .ok ()) :
      Handled lib d s (emitWalletRelevantTx (lib.txid tx)
        (unminedAccounts s.wallet (lib.txid tx)) s)
  /-- Stored, and announced for all accounts. -/
  | stored (tx : Tx) (accounts : List Account) (c : TtlCache Txid)
      (hread : lib.read d.rawTx = some tx)
      (hunseen : s.seenCache.contains (lib.txid tx) = false)
      (hpaid : paidAccounts lib s tx ≠ [])
      (haccounts : ∀ account ∈ paidAccounts lib s tx, account ∈ accounts)
      (hcache : c = s.unmatchedCache ∨
        c = (s.unmatchedCache.containsUnexpired (lib.txid tx) d.checkedAt).2) :
      Handled lib d s (emitWalletRelevantTx (lib.txid tx) accounts { s with
        wallet := storedRows s.wallet (lib.txid tx) (paidAccounts lib s tx)
        unmatchedCache := c
        actions := s.actions ++ [.stored (lib.txid tx) (paidAccounts lib s tx)] })

omit [DecidableEq Txid] in
@[simp] theorem paidAccounts_unmatchedCache (lib : TransactionLibrary Raw Tx Txid Account Keys)
    (s : Observer Txid Account Keys) (c : TtlCache Txid) (tx : Tx) :
    paidAccounts lib { s with unmatchedCache := c } tx = paidAccounts lib s tx := rfl

omit [DecidableEq Txid] in
theorem trialDecrypt_ok (lib : TransactionLibrary Raw Tx Txid Account Keys)
    (s : Observer Txid Account Keys) (tx : Tx) :
    trialDecryptAccountUuids lib (.ok () : Except E Unit) s.wallet.ufvks s.chainTipHeight tx =
      .ok (paidAccounts lib s tx) := rfl

omit [DecidableEq Txid] in
theorem trialDecrypt_error (lib : TransactionLibrary Raw Tx Txid Account Keys) (e : E)
    (ufvks : Keys) (height : Nat) (tx : Tx) :
    trialDecryptAccountUuids lib (.error e) ufvks height tx = .error e := rfl

theorem decryptAndStore_ok (lib : TransactionLibrary Raw Tx Txid Account Keys)
    (s : Observer Txid Account Keys) (tx : Tx) :
    decryptAndStoreTransaction lib (.ok () : Except E Unit) s tx = .ok { s with
      wallet := storedRows s.wallet (lib.txid tx) (paidAccounts lib s tx)
      actions := s.actions ++ [.stored (lib.txid tx) (paidAccounts lib s tx)] } := rfl

theorem decryptAndStore_error (lib : TransactionLibrary Raw Tx Txid Account Keys) (e : E)
    (s : Observer Txid Account Keys) (tx : Tx) :
    decryptAndStoreTransaction lib (.error e) s tx = .error e := rfl

variable {d : Delivery Raw E} {s : Observer Txid Account Keys}

theorem handleUnknown_handled (lib : TransactionLibrary Raw Tx Txid Account Keys)
    {tx : Tx} (hread : lib.read d.rawTx = some tx)
    (hunseen : s.seenCache.contains (lib.txid tx) = false) :
    Handled lib d s (handleUnknown lib d tx s) := by
  by_cases hskip : (s.unmatchedCache.containsUnexpired (lib.txid tx) d.checkedAt).1 = true
  · simp only [handleUnknown,hskip,if_true]
    exact .skipped tx hread (.inl hskip)
  cases hdecrypt : d.trialDecrypt with
  | error e =>
    have hfails : d.trialDecrypt ≠ .ok () := by simp [hdecrypt]
    have h : Handled lib d s _ := .skipped tx hread (.inr (.inl hfails))
    simpa [handleUnknown,hskip,hdecrypt,trialDecrypt_error] using h
  | ok u =>
    have hpays := trialDecrypt_ok (E := E) lib { s with
      unmatchedCache := (s.unmatchedCache.containsUnexpired (lib.txid tx) d.checkedAt).2 } tx
    by_cases hpaid : paidAccounts lib s tx = []
    · have h := Handled.foreign (d := d) tx hread hpaid
      simpa [handleUnknown,hskip,hdecrypt,hpays,hpaid] using h
    · cases hstore : d.store with
      | error e =>
        have hfails : d.store ≠ .ok () := by simp [hstore]
        have h : Handled lib d s _ := .skipped tx hread (.inr (.inr hfails))
        simpa [handleUnknown,hskip,hdecrypt,hpays,hpaid,hstore,decryptAndStore_error] using h
      | ok u =>
        cases u
        have h := Handled.stored (d := d) tx (paidAccounts lib s tx) _ hread hunseen hpaid
          (fun _ h => h) (.inr rfl)
        simpa [handleUnknown,hskip,hdecrypt,hpays,hpaid,hstore,decryptAndStore_ok] using h

theorem merged_new {known decrypted : List Account} :
    (mergeAccountUuids known decrypted).2 = false ↔ ∀ account ∈ decrypted, account ∈ known := by
  simp [mergeAccountUuids]

theorem handleKnown_handled (lib : TransactionLibrary Raw Tx Txid Account Keys)
    {tx : Tx} (hread : lib.read d.rawTx = some tx)
    (hunseen : s.seenCache.contains (lib.txid tx) = false) (hlookup : d.lookup = .ok ())
    (hpending : Pending s.wallet (lib.txid tx)) :
    Handled lib d s (handleKnown lib d tx
      ⟨matchedUnmined s.wallet (lib.txid tx),unminedAccounts s.wallet (lib.txid tx)⟩ s) := by
  cases hdecrypt : d.trialDecrypt with
  | error e =>
    have hfails : d.trialDecrypt ≠ .ok () := by simp [hdecrypt]
    have h := Handled.known tx hread hunseen hlookup hpending (.inr (.inl hfails))
    simpa [handleKnown,hdecrypt,trialDecrypt_error,mergeAccountUuids] using h
  | ok u =>
    have hpays := trialDecrypt_ok (E := E) lib s tx
    cases hnew : (mergeAccountUuids (unminedAccounts s.wallet (lib.txid tx))
        (paidAccounts lib s tx)).2 with
    | false =>
      have h := Handled.known tx hread hunseen hlookup hpending (.inl (merged_new.mp hnew))
      simpa [handleKnown,hdecrypt,hpays,hnew] using h
    | true =>
      cases hstore : d.store with
      | error e =>
        have hfails : d.store ≠ .ok () := by simp [hstore]
        have h := Handled.known tx hread hunseen hlookup hpending (.inr (.inr hfails))
        simpa [handleKnown,hdecrypt,hpays,hnew,hstore,decryptAndStore_error] using h
      | ok u =>
        cases u
        have hpaid : paidAccounts lib s tx ≠ [] := by
          intro hempty
          simp [mergeAccountUuids,hempty] at hnew
        have h := Handled.stored (d := d) tx (mergeAccountUuids
          (unminedAccounts s.wallet (lib.txid tx)) (paidAccounts lib s tx)).1 _ hread hunseen hpaid
          (fun account haccount => by simp [mergeAccountUuids,haccount]) (.inl rfl)
        simpa [handleKnown,hdecrypt,hpays,hnew,hstore,decryptAndStore_ok] using h

theorem handleMempoolTx_handled (lib : TransactionLibrary Raw Tx Txid Account Keys)
    (d : Delivery Raw E) (s : Observer Txid Account Keys) :
    Handled lib d s (handleMempoolTx lib d s) := by
  cases hread : lib.read d.rawTx with
  | none =>
    have h : Handled lib d s s := .idle fun tx htx => by simp [hread] at htx
    simpa [handleMempoolTx,hread] using h
  | some tx =>
    cases hseen : s.seenCache.contains (lib.txid tx) with
    | true =>
      have h : Handled lib d s s := .idle fun tx' htx => by
        cases hread.symm.trans htx
        exact .inl hseen
      simpa [handleMempoolTx,hread,hseen] using h
    | false =>
      cases hlookup : d.lookup with
      | error e =>
        have h : Handled lib d s s := .idle fun tx' htx => .inr (by simp [hlookup])
        simpa [handleMempoolTx,hread,hseen,lookupKnownPendingTx,hlookup,bind,Except.bind] using h
      | ok u =>
        by_cases hpending : Pending s.wallet (lib.txid tx)
        · have h := handleKnown_handled lib hread hseen hlookup hpending
          have hcond : (matchedUnmined s.wallet (lib.txid tx) = true ∨
              ¬ unminedAccounts s.wallet (lib.txid tx) = []) := hpending
          simpa [handleMempoolTx,hread,hseen,lookupKnownPendingTx,hlookup,bind,Except.bind,hcond]
            using h
        · have h := handleUnknown_handled lib hread hseen
          have hcond : ¬ (matchedUnmined s.wallet (lib.txid tx) = true ∨
              ¬ unminedAccounts s.wallet (lib.txid tx) = []) := hpending
          simpa only [handleMempoolTx,hread,hseen,lookupKnownPendingTx,hlookup,bind,Except.bind,
            Bool.or_eq_true,Bool.not_eq_true',List.isEmpty_eq_false_iff,ne_eq,hcond,if_false,
            Bool.false_eq_true] using h

variable {s' : Observer Txid Account Keys} {lib : TransactionLibrary Raw Tx Txid Account Keys}

theorem Handled.foreign_untouched (h : Handled lib d s s')
    (hforeign : ∀ tx, lib.read d.rawTx = some tx → Foreign lib s tx) :
    s'.wallet = s.wallet ∧ ∀ action ∈ s'.actions.drop s.actions.length,
      ∃ txid at', action = .foundForeign txid at' := by
  cases h with
  | idle h => simp
  | skipped tx hread h => simp
  | foreign tx hread h => simp
  | known tx hread hunseen hlookup hpending h => exact absurd hpending (hforeign tx hread).1
  | stored tx accounts c hread hunseen hpaid haccounts hcache =>
    exact absurd (hforeign tx hread).2 hpaid

theorem Handled.announced (h : Handled lib d s s') {event : MempoolTxEvent Txid Account}
    (hevent : ObserverAction.emitted event ∈ s'.actions.drop s.actions.length) :
    Pending s.wallet event.txid ∨ ∃ accounts,
      s'.actions.drop s.actions.length = [.stored event.txid accounts,.emitted event] := by
  cases h with
  | idle h => simp at hevent
  | skipped tx hread h => simp at hevent
  | foreign tx hread h => simp at hevent
  | known tx hread hunseen hlookup hpending h =>
    have heq : event = ⟨lib.txid tx,unminedAccounts s.wallet (lib.txid tx),true⟩ := by
      simpa [emitWalletRelevantTx] using hevent
    exact .inl (heq ▸ hpending)
  | stored tx accounts c hread hunseen hpaid haccounts hcache =>
    have heq : event = ⟨lib.txid tx,accounts,true⟩ := by
      simpa [emitWalletRelevantTx] using hevent
    exact .inr ⟨paidAccounts lib s tx,by simp [emitWalletRelevantTx,heq]⟩

/-- The seen cache has the announced transactions: they are different, and all relevant. -/
structure AnnouncedOnce (relevant : List Txid) (s : Observer Txid Account Keys) : Prop where
  holds : s.seenCache.Holds (announcedTxids s)
  maxLen : s.seenCache.maxLen = 2048
  nodup : (announcedTxids s).Nodup
  relevant : announcedTxids s ⊆ relevant

omit [DecidableEq Txid] [LinearOrder Account] in
theorem AnnouncedOnce.congr {relevant : List Txid} {s s' : Observer Txid Account Keys}
    (h : AnnouncedOnce relevant s) (hcache : s'.seenCache = s.seenCache)
    (hsame : announcedTxids s' = announcedTxids s) : AnnouncedOnce relevant s' where
  holds := by rw [hcache,hsame]; exact h.holds
  maxLen := by rw [hcache]; exact h.maxLen
  nodup := by rw [hsame]; exact h.nodup
  relevant := by rw [hsame]; exact h.relevant

omit [DecidableEq Txid] [LinearOrder Account] in
@[simp] theorem announcedTxids_append (s : Observer Txid Account Keys)
    (wallet : Wallet Txid Account Keys) (height : Nat) (seen : SeenCache Txid)
    (unmatched : TtlCache Txid) (actions : List (ObserverAction Txid Account)) :
    announcedTxids ⟨wallet,height,seen,unmatched,s.actions ++ actions⟩ =
      announcedTxids s ++ (actions.filterMap announcement).map (·.txid) := by
  simp [announcedTxids,announcements]

omit [LinearOrder Account] in
theorem AnnouncedOnce.emit {relevant : List Txid} (hlen : relevant.length < 2048)
    {s : Observer Txid Account Keys} (h : AnnouncedOnce relevant s) {txid : Txid}
    (hunseen : s.seenCache.contains txid = false) (hrelevant : txid ∈ relevant)
    (accounts : List Account) :
    AnnouncedOnce relevant (emitWalletRelevantTx txid accounts s) := by
  have hnew : txid ∉ announcedTxids s := by
    intro hmem
    rw [(h.holds.contains_iff txid).mpr hmem] at hunseen
    cases hunseen
  have htxids : announcedTxids (emitWalletRelevantTx txid accounts s) =
      announcedTxids s ++ [txid] := by
    simp [emitWalletRelevantTx,announcement]
  have hroom : (announcedTxids s).length < s.seenCache.maxLen := by
    have hle := (List.subperm_of_subset h.nodup h.relevant).length_le
    rw [h.maxLen]
    omega
  constructor
  · rw [htxids]
    exact h.holds.insert hnew hroom
  · simpa [emitWalletRelevantTx] using h.maxLen
  · rw [htxids]
    exact h.nodup.append (List.nodup_singleton txid) (List.disjoint_singleton.mpr hnew)
  · rw [htxids]
    intro other hother
    rcases List.mem_append.mp hother with hmem | hmem
    · exact h.relevant hmem
    · exact List.mem_singleton.mp hmem ▸ hrelevant

/-- Every delivered transaction that the wallet has or that pays it is one of these. -/
def Within (lib : TransactionLibrary Raw Tx Txid Account Keys) (relevant : List Txid) :
    ObserverEvent Raw Txid Account Keys E → Observer Txid Account Keys → Prop
  | .deliver d, s => ∀ tx, lib.read d.rawTx = some tx → ¬ Foreign lib s tx →
      lib.txid tx ∈ relevant
  | .evolve _, _ => True
  | .reconnect _, _ => True

theorem Handled.announcedOnce {relevant : List Txid} (hlen : relevant.length < 2048)
    (h : Handled lib d s s') (hwithin : Within lib relevant (.deliver d) s)
    (hs : AnnouncedOnce relevant s) : AnnouncedOnce relevant s' := by
  cases h with
  | idle h => exact hs
  | skipped tx hread h => exact hs.congr rfl rfl
  | foreign tx hread h => exact hs.congr rfl (by simp [announcement])
  | known tx hread hunseen hlookup hpending h =>
    exact hs.emit hlen hunseen (hwithin tx hread fun hforeign => hforeign.1 hpending) _
  | stored tx accounts c hread hunseen hpaid haccounts hcache =>
    have hrelevant := hwithin tx hread fun hforeign => hpaid hforeign.2
    have hstored : AnnouncedOnce relevant { s with
        wallet := storedRows s.wallet (lib.txid tx) (paidAccounts lib s tx)
        unmatchedCache := c
        actions := s.actions ++ [.stored (lib.txid tx) (paidAccounts lib s tx)] } :=
      hs.congr rfl (by simp [announcement])
    exact hstored.emit hlen hunseen hrelevant accounts

/-- What the unmatched cache has was found foreign, ten seconds before it expires. -/
structure UnmatchedSound (s : Observer Txid Account Keys) : Prop where
  sound : TtlCache.Sound s.unmatchedCache.entries fun txid expiresAt =>
    ∃ at', ObserverAction.foundForeign txid at' ∈ s.actions ∧ expiresAt = at' + unmatchedTxidTtl
  ttl : s.unmatchedCache.ttl = unmatchedTxidTtl

omit [DecidableEq Txid] [LinearOrder Account] in
theorem UnmatchedSound.mono {s s' : Observer Txid Account Keys} (h : UnmatchedSound s)
    (hcache : s'.unmatchedCache = s.unmatchedCache) (hactions : s.actions ⊆ s'.actions) :
    UnmatchedSound s' := by
  constructor
  · intro txid expiresAt hentry
    rw [hcache] at hentry
    obtain ⟨at',hmem,heq⟩ := h.sound txid expiresAt hentry
    exact ⟨at',hactions hmem,heq⟩
  · rw [hcache]
    exact h.ttl

omit [LinearOrder Account] in
theorem UnmatchedSound.looked {s : Observer Txid Account Keys} (h : UnmatchedSound s) (txid : Txid)
    (now : Nat) :
    UnmatchedSound { s with unmatchedCache := (s.unmatchedCache.containsUnexpired txid now).2 } where
  sound := h.sound.containsUnexpired txid now
  ttl := by simpa [TtlCache.containsUnexpired_ttl] using h.ttl

omit [LinearOrder Account] in
theorem UnmatchedSound.noted {s : Observer Txid Account Keys} (h : UnmatchedSound s) (txid : Txid)
    (now : Nat) : UnmatchedSound { s with
      unmatchedCache := s.unmatchedCache.insert txid now
      actions := s.actions ++ [.foundForeign txid now] } := by
  have hmono : TtlCache.Sound s.unmatchedCache.entries fun txid' expiresAt => ∃ at',
      ObserverAction.foundForeign txid' at' ∈ s.actions ++ [.foundForeign txid now] ∧
        expiresAt = at' + unmatchedTxidTtl := by
    intro txid' expiresAt hentry
    obtain ⟨at',hmem,heq⟩ := h.sound txid' expiresAt hentry
    exact ⟨at',List.mem_append_left _ hmem,heq⟩
  constructor
  · apply hmono.insert
    exact ⟨now,by simp,by rw [h.ttl]⟩
  · simpa [TtlCache.insert_ttl] using h.ttl

theorem Handled.unmatchedSound (h : Handled lib d s s') (hs : UnmatchedSound s) :
    UnmatchedSound s' := by
  cases h with
  | idle h => exact hs
  | skipped tx hread h => exact hs.looked _ _
  | foreign tx hread h => exact (hs.looked (lib.txid tx) d.checkedAt).noted (lib.txid tx) d.unmatchedAt
  | known tx hread hunseen hlookup hpending h =>
    exact hs.mono rfl (by simp [emitWalletRelevantTx])
  | stored tx accounts c hread hunseen hpaid haccounts hcache =>
    have hlooked : UnmatchedSound { s with unmatchedCache := c } := by
      rcases hcache with rfl | rfl
      · exact hs
      · exact hs.looked _ _
    exact hlooked.mono rfl (by simp [emitWalletRelevantTx])

/-- Every account that an announced transaction pays has its row and its announcement. -/
def PaidAccountsTold (lib : TransactionLibrary Raw Tx Txid Account Keys)
    (s : Observer Txid Account Keys) : Prop :=
  ∀ tx, lib.txid tx ∈ announcedTxids s → ∀ account ∈ paidAccounts lib s tx,
    StoredFor s.wallet (lib.txid tx) account ∧ AnnouncedTo s (lib.txid tx) account

/-- Under the new wallet and chain tip, no announced transaction pays a further account or loses
the row of one that it pays. -/
def KeepsPaidAccounts (lib : TransactionLibrary Raw Tx Txid Account Keys)
    (s s' : Observer Txid Account Keys) : Prop :=
  ∀ tx, lib.txid tx ∈ announcedTxids s → ∀ account ∈ paidAccounts lib s' tx,
    account ∈ paidAccounts lib s tx ∧
      (StoredFor s.wallet (lib.txid tx) account → StoredFor s'.wallet (lib.txid tx) account)

/-- When a transaction that the wallet has as unmined is delivered and pays an account that its
rows do not name yet, the calls that find and store it succeed. Nothing that was announced gains an
account or loses its row. -/
def FurtherAccountsFound (lib : TransactionLibrary Raw Tx Txid Account Keys) :
    ObserverEvent Raw Txid Account Keys E → Observer Txid Account Keys → Prop
  | .deliver d, s => ∀ tx, lib.read d.rawTx = some tx → lib.txid tx ∉ announcedTxids s →
      d.lookup = .ok () → Pending s.wallet (lib.txid tx) →
      (∃ account ∈ paidAccounts lib s tx, account ∉ unminedAccounts s.wallet (lib.txid tx)) →
      d.trialDecrypt = .ok () ∧ d.store = .ok ()
  | .evolve wallet, s => KeepsPaidAccounts lib s { s with wallet := wallet }
  | .reconnect height, s => KeepsPaidAccounts lib s { s with chainTipHeight := height }

theorem storedFor_of_unmined {wallet : Wallet Txid Account Keys} {txid : Txid} {account : Account}
    (h : account ∈ unminedAccounts wallet txid) : StoredFor wallet txid account := by
  simp only [unminedAccounts,mem_sortedSet,List.mem_map,List.mem_filter,Bool.and_eq_true,
    decide_eq_true_eq] at h
  obtain ⟨row,⟨hrow,htxid,_⟩,haccount⟩ := h
  exact ⟨row,hrow,htxid,haccount⟩

omit [LinearOrder Account] in
theorem storedRows_ufvks (wallet : Wallet Txid Account Keys) (txid : Txid)
    (accounts : List Account) : (storedRows wallet txid accounts).ufvks = wallet.ufvks := by
  unfold storedRows
  split <;> rfl

omit [LinearOrder Account] in
theorem storedRows_storedFor (wallet : Wallet Txid Account Keys) (txid : Txid)
    (accounts : List Account) (txid' : Txid) (account : Account) :
    StoredFor (storedRows wallet txid accounts) txid' account ↔
      StoredFor wallet txid' account ∨ txid' = txid ∧ account ∈ accounts := by
  have happend : ∀ height : Option Nat,
      (∃ row ∈ wallet.vTransactions ++ accounts.map fun account =>
          (⟨account,txid,height⟩ : AccountTransactionRow Txid Account),
        row.txid = txid' ∧ row.accountUuid = account) ↔
      StoredFor wallet txid' account ∨ txid' = txid ∧ account ∈ accounts := by
    intro height
    simp only [StoredFor,List.mem_append,List.mem_map,or_and_right,exists_or]
    apply or_congr Iff.rfl
    constructor
    · rintro ⟨row,⟨other,hother,rfl⟩,rfl,rfl⟩
      exact ⟨rfl,hother⟩
    · rintro ⟨rfl,hmem⟩
      exact ⟨_,⟨account,hmem,rfl⟩,rfl,rfl⟩
  unfold storedRows
  split
  · exact happend _
  · exact happend none

omit [DecidableEq Txid] in
theorem paidAccounts_txid (lib : TransactionLibrary Raw Tx Txid Account Keys)
    (s : Observer Txid Account Keys) {tx tx' : Tx} (h : lib.txid tx = lib.txid tx') :
    paidAccounts lib s tx = paidAccounts lib s tx' := by
  unfold paidAccounts
  rw [lib.decrypt_txid tx tx' h]

omit [DecidableEq Txid] in
theorem PaidAccountsTold.kept (h : PaidAccountsTold lib s)
    (hannouncements : announcements s' = announcements s) (hkeeps : KeepsPaidAccounts lib s s') :
    PaidAccountsTold lib s' := by
  intro tx htx account haccount
  have htxids : announcedTxids s' = announcedTxids s := by
    simp [announcedTxids,hannouncements]
  rw [htxids] at htx
  obtain ⟨hpaid,hrow⟩ := hkeeps tx htx account haccount
  obtain ⟨hstored,htold⟩ := h tx htx account hpaid
  unfold AnnouncedTo
  rw [hannouncements]
  exact ⟨hrow hstored,htold⟩

/-- A further announcement, for all the accounts of one transaction, when they have their rows. -/
theorem PaidAccountsTold.emit (h : PaidAccountsTold lib s) {tx : Tx} {accounts : List Account}
    (hrows : ∀ account ∈ paidAccounts lib s tx, StoredFor s.wallet (lib.txid tx) account)
    (htold : ∀ account ∈ paidAccounts lib s tx, account ∈ accounts) :
    PaidAccountsTold lib (emitWalletRelevantTx (lib.txid tx) accounts s) := by
  have hannouncements : announcements (emitWalletRelevantTx (lib.txid tx) accounts s) =
      announcements s ++ [⟨lib.txid tx,accounts,true⟩] := by
    simp [emitWalletRelevantTx,announcements,announcement]
  intro tx' htx' account haccount
  have hpaid : account ∈ paidAccounts lib s tx' := haccount
  by_cases hsame : lib.txid tx' = lib.txid tx
  · rw [paidAccounts_txid lib s hsame] at hpaid
    rw [hsame]
    exact ⟨hrows account hpaid,⟨lib.txid tx,accounts,true⟩,by simp [hannouncements],rfl,
      htold account hpaid⟩
  · have hold : lib.txid tx' ∈ announcedTxids s := by
      simpa [announcedTxids,hannouncements,hsame] using htx'
    obtain ⟨hrow,event,hevent,hmatch⟩ := h tx' hold account hpaid
    exact ⟨hrow,event,by simp [hannouncements,hevent],hmatch⟩

theorem Handled.paidAccountsTold {relevant : List Txid} (h : Handled lib d s s')
    (hfound : FurtherAccountsFound lib (.deliver d) s) (honce : AnnouncedOnce relevant s)
    (hs : PaidAccountsTold lib s) : PaidAccountsTold lib s' := by
  cases h with
  | idle h => exact hs
  | skipped tx hread h => exact hs.kept rfl fun _ _ _ hpaid => ⟨hpaid,id⟩
  | foreign tx hread h =>
    exact hs.kept (by simp [announcements,announcement]) fun _ _ _ hpaid => ⟨hpaid,id⟩
  | known tx hread hunseen hlookup hpending h =>
    have hnew : lib.txid tx ∉ announcedTxids s := by
      intro hmem
      simp [(honce.holds.contains_iff _).mpr hmem] at hunseen
    have hknown : ∀ account ∈ paidAccounts lib s tx,
        account ∈ unminedAccounts s.wallet (lib.txid tx) := by
      rcases h with hknown | hfails
      · exact hknown
      · by_contra hfurther
        push Not at hfurther
        have hcalls := hfound tx hread hnew hlookup hpending hfurther
        simp [hcalls.1,hcalls.2] at hfails
    exact hs.emit (fun account haccount => storedFor_of_unmined (hknown account haccount)) hknown
  | stored tx accounts c hread hunseen hpaid haccounts hcache =>
    have hpays : ∀ tx', paidAccounts lib { s with
        wallet := storedRows s.wallet (lib.txid tx) (paidAccounts lib s tx)
        unmatchedCache := c
        actions := s.actions ++ [.stored (lib.txid tx) (paidAccounts lib s tx)] } tx' =
        paidAccounts lib s tx' := by
      intro tx'
      simp [paidAccounts,storedRows_ufvks]
    have hstored : PaidAccountsTold lib { s with
        wallet := storedRows s.wallet (lib.txid tx) (paidAccounts lib s tx)
        unmatchedCache := c
        actions := s.actions ++ [.stored (lib.txid tx) (paidAccounts lib s tx)] } := by
      apply hs.kept (by simp [announcements,announcement])
      intro tx' htx' account haccount
      rw [hpays] at haccount
      exact ⟨haccount,fun hrow => (storedRows_storedFor _ _ _ _ _).mpr (.inl hrow)⟩
    apply hstored.emit
    · intro account haccount
      rw [hpays] at haccount
      exact (storedRows_storedFor _ _ _ _ _).mpr (.inr ⟨rfl,haccount⟩)
    · intro account haccount
      rw [hpays] at haccount
      exact haccounts account haccount

end CoppiceWallet.Mempool

import CoSigner.Contract.Page
import CoSigner.SigningPolicy.Ethereum

/-! What an accepted discovery page guarantees. -/
namespace CoSigner.Approval
open Json Contract SigningPolicy SigningPolicy.VectorTerms

/-- An accepted page is short, ordered and bound, and of one organization. -/
structure PageHolds (L : Libraries) (items : List PendingItem) : Prop where
  few : items.length ≤ 100
  distinct : (items.map PendingItem.requestID).Nodup
  timed : ∀ item ∈ items, ∃ t, Time.parseMillis item.createdAt = some t
  ordered : items.Pairwise PendingItem.Before
  bound : ∃ orgID, ∀ item ∈ items, item.Bound L orgID

theorem accepted_page_holds (L : Libraries) (raw : Bytes) (h : parsePendingPage L raw = some ()) :
    ∃ items, pageItems L raw = some items ∧ PageHolds L items := by
  simp only [parsePendingPage, Option.bind_eq_bind, Option.bind_eq_some_iff, Option.bind_none,
    Option.ite_none_left_eq_some, Bool.or_eq_true, not_or, decide_eq_true_eq, Nat.not_lt] at h
  obtain ⟨v,hv,-,-,raws,⟨text,hget,htext⟩,⟨-,hfew⟩,scan,hscan,-⟩ := h
  obtain ⟨rows,hrows,hlen,hholds⟩ := scanItems_hold .nil hscan
  refine ⟨rows,?_,by omega,?_,hholds.timed,?_,scan.pageOrgID,hholds.bound⟩
  · simp [pageItems, hv, hget, htext, hrows]
  · simpa using hholds.distinct
  · simpa using hholds.ordered

/-- The request of `ethereum:mainnet-native` again, under another ID. -/
def laterRequestID : Bytes := numbered "8"

def laterHash : Bytes :=
  ascii "bf66d96a431101ec6e3d3cf06bb58393" ++ ascii "f4c098a991a150c5d0f7be10a6ba08d3"

def pageLibraries : Libraries :=
  { mainnetLibraries with
    sha256 := tabled [(mainnetTerms.authorization,hexBytes mainnetHash),
      (mainnetTerms.authorizationOf laterRequestID,hexBytes laterHash)] }

def pageItem (request authorizationHash : Bytes) : Bytes :=
  braces [entry "requestId" (plain request),
    entry "createdAt" (plain (ascii "2026-01-02T03:04:05.678Z")),
    entry "authorization" (mainnetTerms.authorizationOf request),
    entry "authorizationHash" (plain authorizationHash)]

/-- A page of the two requests, made at the same instant. -/
def mainnetPage : Bytes :=
  braces [entry "version" (ascii "1"),
    entry "items" (0x5B :: (commaJoin [pageItem requestID mainnetHash,
      pageItem laterRequestID laterHash] ++ [0x5D])),
    entry "nextCursor" (ascii "null")]

theorem accepted_page_holds_mainnet : parsePendingPage pageLibraries mainnetPage = some () ∧
    ∃ items, pageItems pageLibraries mainnetPage = some items ∧
      items.map PendingItem.requestID = [requestID, laterRequestID] ∧
      PageHolds pageLibraries items := by
  obtain ⟨haccepted,hids⟩ : parsePendingPage pageLibraries mainnetPage = some () ∧
      (pageItems pageLibraries mainnetPage).map (·.map PendingItem.requestID) =
        some [requestID, laterRequestID] := by
    decide +kernel
  obtain ⟨items,hitems,hholds⟩ := accepted_page_holds pageLibraries mainnetPage haccepted
  rw [hitems] at hids
  exact ⟨haccepted,items,hitems,Option.some.inj hids,hholds⟩

end CoSigner.Approval

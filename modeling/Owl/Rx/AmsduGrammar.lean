import Owl.Rx.Amsdu
import Owl.Rx.Effect
import Owl.Tx.Headers

/-! # The grammar of an aggregate

An A-MSDU is a sequence of subframes, each padded to a multiple of four bytes but
for the last one, which may go without. `awdl_rx_data_amsdu` accepts exactly these
strings if no subframe is rejected, and then delivers what the subframes deliver
one by one (`awdlRxDataAmsdu_grammar`).
-/

namespace Owl

open Octets

/-- The header and the body of a subframe. -/
def AmsduSubframe.bytes (sub : AmsduSubframe) : List UInt8 :=
  sub.dst.octets ++ sub.src.octets ++ be16 (UInt16.ofNat sub.body.length) ++ sub.body

/-- The length of a subframe fits into its field. -/
def AmsduSubframe.Short (sub : AmsduSubframe) : Prop := sub.body.length < 2 ^ 16

/-- A subframe and its padding fill a multiple of four bytes. -/
structure AmsduSubframe.PaddedBy (sub : AmsduSubframe) (pad : List UInt8) : Prop where
  least : pad.length < 4
  aligned : (14 + sub.body.length + pad.length) % 4 = 0

/-- The aggregates and their subframes. -/
inductive AmsduString : List AmsduSubframe → List UInt8 → Prop
  | nil : AmsduString [] []
  | last {sub : AmsduSubframe} (short : sub.Short) : AmsduString [sub] sub.bytes
  | cons {sub : AmsduSubframe} {pad : List UInt8} {subs : List AmsduSubframe}
      {bytes : List UInt8} (short : sub.Short) (padded : sub.PaddedBy pad)
      (rest : AmsduString subs bytes) : AmsduString (sub :: subs) (sub.bytes ++ (pad ++ bytes))

theorem AmsduSubframe.length_bytes (sub : AmsduSubframe) :
    sub.bytes.length = 14 + sub.body.length := by
  unfold bytes
  rw [List.length_append, List.length_append, List.length_append, EtherAddr.length_octets,
    EtherAddr.length_octets, length_be16]

/-- The padding of the source. -/
theorem AmsduSubframe.paddedBy_iff (sub : AmsduSubframe) (pad : List UInt8) :
    sub.PaddedBy pad ↔ pad.length = (4 - (14 + sub.body.length) % 4) % 4 := by
  constructor
  · rintro ⟨least, aligned⟩
    omega
  · intro length
    constructor <;> omega

/-- The header of a subframe at the front of a string. -/
theorem AmsduSubframe.header {sub : AmsduSubframe} (short : sub.Short) (tail : List UInt8) :
    EtherAddr.ofOctets (sub.bytes ++ tail) = sub.dst ∧
      EtherAddr.ofOctets ((sub.bytes ++ tail).drop 6) = sub.src ∧
      Octets.ofBE (((sub.bytes ++ tail).drop 12).take 2) = sub.body.length ∧
      (sub.bytes ++ tail).drop 14 = sub.body ++ tail := by
  refine ⟨rfl, rfl, ?_, rfl⟩
  have field : ((sub.bytes ++ tail).drop 12).take 2 = be16 (UInt16.ofNat sub.body.length) := rfl
  have length : (UInt16.ofNat sub.body.length).toNat = sub.body.length := by
    rw [UInt16.toNat_ofNat', Nat.mod_eq_of_lt short]
  have small : sub.body.length < 256 ^ 2 := short
  rw [field, be16, length, Octets.ofBE_toBE, Nat.mod_eq_of_lt small]

/-- A string with a complete subframe at its front. -/
theorem exists_subframe {bytes : List UInt8} {len : Nat}
    (announced : len = ofBE ((bytes.drop 12).take 2)) (complete : 14 + len ≤ bytes.length) :
    ∃ sub tail, AmsduSubframe.Short sub ∧ bytes = sub.bytes ++ tail := by
  have field : ((bytes.drop 12).take 2).length = 2 := by
    rw [List.length_take, List.length_drop]
    omega
  have short : len < 2 ^ 16 := by
    have bound := ofBE_lt ((bytes.drop 12).take 2)
    rw [field] at bound
    exact announced ▸ bound
  have body : ((bytes.drop 14).take len).length = len := by
    rw [List.length_take, List.length_drop]
    omega
  have second : 6 ≤ (bytes.drop 6).length := by
    rw [List.length_drop]
    omega
  refine ⟨⟨EtherAddr.ofOctets bytes, EtherAddr.ofOctets (bytes.drop 6), (bytes.drop 14).take len⟩,
    (bytes.drop 14).drop len, Nat.lt_of_le_of_lt (Nat.le_of_eq body) short, ?_⟩
  unfold AmsduSubframe.bytes
  dsimp only
  rw [body, announced, be16_ofBE field, EtherAddr.octets_ofOctets (by omega),
    EtherAddr.octets_ofOctets second, List.append_assoc, List.append_assoc, List.append_assoc,
    List.take_append_drop]
  rw [show bytes.drop 14 = (bytes.drop 12).drop 2 by rw [List.drop_drop], List.take_append_drop,
    show bytes.drop 12 = (bytes.drop 6).drop 6 by rw [List.drop_drop], List.take_append_drop,
    List.take_append_drop]

/-! ## One subframe -/

variable {platform : Platform} {env : RxEnv}

/-- `awdl_rx_data` on the body of a subframe, with its inner addresses. -/
def AmsduSubframe.rxData (platform : Platform) (env : RxEnv) (sub : AmsduSubframe)
    (out : List Buf) (state : AwdlState) : RxResult × List Buf × AwdlState :=
  awdlRxData platform env (bufNewConst sub.body) out sub.src sub.dst state

/-- `awdl_rx_data` returns no negative result on a subframe. -/
def AmsduSubframe.Accepted (platform : Platform) (env : RxEnv) (state : AwdlState)
    (sub : AmsduSubframe) : Prop :=
  0 ≤ (sub.rxData platform env [] state).1.code

/-- The output after `awdl_rx_data` has run on a subframe. -/
def AmsduSubframe.deliver (platform : Platform) (env : RxEnv) (state : AwdlState)
    (out : List Buf) (sub : AmsduSubframe) : List Buf :=
  (sub.rxData platform env out state).2.1

/-- The output so far does not matter for the result, and the counters for nothing. -/
theorem awdlRxData_congr (frame : Buf) (out : List Buf) (src dst : EtherAddr) (state : AwdlState)
    (stats : AwdlStats) :
    (awdlRxData platform env frame out src dst { state with stats := stats }).1 =
        (awdlRxData platform env frame [] src dst state).1 ∧
      (awdlRxData platform env frame out src dst { state with stats := stats }).2.1 =
        (awdlRxData platform env frame out src dst state).2.1 := by
  unfold awdlRxData
  dsimp only
  split_ifs
  all_goals exact ⟨rfl, rfl⟩

theorem AmsduSubframe.accepted_iff (sub : AmsduSubframe) (out : List Buf) (state : AwdlState) :
    sub.Accepted platform env state ↔ ¬(sub.rxData platform env out state).1.code < 0 := by
  unfold Accepted rxData
  rw [(awdlRxData_congr _ out _ _ state state.stats).1, not_lt]

/-- The state after a subframe treats the others as the state before it. -/
theorem AmsduSubframe.rxData_state (sub : AmsduSubframe) (out : List Buf) (state : AwdlState) :
    AmsduSubframe.Accepted platform env (sub.rxData platform env out state).2.2 =
        AmsduSubframe.Accepted platform env state ∧
      AmsduSubframe.deliver platform env (sub.rxData platform env out state).2.2 =
        AmsduSubframe.deliver platform env state := by
  unfold rxData
  rw [awdlRxData_state]
  constructor
  · funext other
    unfold Accepted rxData
    rw [(awdlRxData_congr _ [] _ _ state _).1]
  · funext out other
    exact (awdlRxData_congr _ out _ _ state _).2

/-- A round of the loop with a subframe at the front of the frame. -/
theorem amsduLoop_subframe {sub : AmsduSubframe} {frame : Buf} {tail : List UInt8}
    (short : sub.Short) (front : frame.view = sub.bytes ++ tail) :
    ∃ behind : Buf, behind.view = tail ∧ ∀ fuel out state,
      amsduLoop platform env (fuel + 1) frame out state =
        let handled := sub.rxData platform env out state
        if handled.1.code < 0 then handled
        else if behind.len > 0 then
          match bufStrip behind ((4 - (14 + sub.body.length) % 4) % 4 : Nat) with
          | none => (.tooShort, handled.2.1, handled.2.2)
          | some next => amsduLoop platform env fuel next handled.2.1 handled.2.2
        else amsduLoop platform env fuel behind handled.2.1 handled.2.2 := by
  have length : frame.view.length = 14 + sub.body.length + tail.length := by
    rw [front, List.length_append, sub.length_bytes]
  have enough : 14 ≤ frame.view.length := by omega
  obtain ⟨len, body, dst, src, readLen, strip, lenEq, viewed⟩ := amsdu_header enough
  obtain ⟨dstEq, srcEq, bodyLen, bodyEq⟩ := sub.header short tail
  rw [front, dstEq] at dst
  rw [front, srcEq] at src
  rw [front, bodyLen] at lenEq
  rw [front, bodyEq] at viewed
  have within : sub.body.length ≤ body.view.length := by
    rw [viewed, List.length_append]
    omega
  obtain ⟨behind, stripBody, viewedBehind⟩ := bufStrip_of_le within
  refine ⟨behind, ?_, ?_⟩
  · rw [viewedBehind, viewed, List.drop_left]
  · intro fuel out state
    have nonempty : frame.len ≠ 0 := by
      rw [← frame.length_view]
      omega
    have fits : ¬sub.body.length > body.len := by
      rw [← body.length_view]
      omega
    rw [amsduLoop, if_neg nonempty, dst, src, readLen, strip]
    dsimp only
    rw [lenEq, if_neg fits, viewed, List.take_left, stripBody]
    rfl

/-- A frame that does not start with a subframe. -/
theorem amsduLoop_incomplete {frame : Buf} (nonempty : frame.view ≠ [])
    (incomplete : ¬∃ sub tail, AmsduSubframe.Short sub ∧ frame.view = sub.bytes ++ tail)
    (fuel : Nat) (out : List Buf) (state : AwdlState) :
    amsduLoop platform env (fuel + 1) frame out state = (.tooShort, out, state) := by
  have positive : frame.len ≠ 0 := by
    rw [← frame.length_view]
    exact mt List.length_eq_zero_iff.mp nonempty
  rw [amsduLoop, if_neg positive]
  by_cases enough : 14 ≤ frame.view.length
  · obtain ⟨len, body, dst, src, readLen, strip, lenEq, viewed⟩ := amsdu_header enough
    have cut : len.toNat > body.len := by
      by_contra fits
      refine incomplete (exists_subframe lenEq ?_)
      rw [← body.length_view, viewed, List.length_drop] at fits
      omega
    rw [dst, src, readLen, strip]
    exact if_pos cut
  · have strip : bufStrip frame 14 = none := bufStrip_of_lt (Nat.lt_of_not_le enough)
    rw [strip]
    split
    · rename_i none
      cases none
    · rfl

theorem amsduLoop_empty {frame : Buf} (empty : frame.view = []) (fuel : Nat) (out : List Buf)
    (state : AwdlState) : amsduLoop platform env fuel frame out state = (.ok, out, state) := by
  have zero : frame.len = 0 := by rw [← frame.length_view, empty, List.length_nil]
  cases fuel with
  | zero => rfl
  | succ fuel => exact if_pos zero

section Round

variable {sub : AmsduSubframe} {frame : Buf} {tail : List UInt8} (short : sub.Short)
  (front : frame.view = sub.bytes ++ tail)

include short front

theorem amsduLoop_rejected {out : List Buf} {state : AwdlState}
    (rejected : (sub.rxData platform env out state).1.code < 0)
    (fuel : Nat) :
    amsduLoop platform env (fuel + 1) frame out state =
      sub.rxData platform env out state := by
  obtain ⟨behind, _, round⟩ := amsduLoop_subframe short front
  exact (round fuel out state).trans (if_pos rejected)

variable {out : List Buf} {state : AwdlState}
  (accepted : ¬(sub.rxData platform env out state).1.code < 0)

include accepted

/-- The last subframe goes without padding. -/
theorem amsduLoop_last (last : tail = []) (fuel : Nat) :
    amsduLoop platform env (fuel + 1) frame out state =
      (.ok, (sub.rxData platform env out state).2) := by
  obtain ⟨behind, viewed, round⟩ := amsduLoop_subframe short front
  have none : ¬behind.len > 0 := by
    rw [← behind.length_view, viewed, last]
    exact Nat.lt_irrefl 0
  rw [round]
  dsimp only
  rw [if_neg accepted, if_neg none, amsduLoop_empty (viewed.trans last)]

/-- Padding that is there only in part. -/
theorem amsduLoop_unpadded (more : tail ≠ [])
    (cut : tail.length < (4 - (14 + sub.body.length) % 4) % 4) (fuel : Nat) :
    amsduLoop platform env (fuel + 1) frame out state =
      (.tooShort, (sub.rxData platform env out state).2) := by
  obtain ⟨behind, viewed, round⟩ := amsduLoop_subframe short front
  have some : behind.len > 0 := by
    rw [← behind.length_view, viewed]
    exact List.length_pos_iff.mpr more
  rw [round]
  dsimp only
  rw [if_neg accepted, if_pos some, bufStrip_of_lt (viewed ▸ cut)]

/-- The walk goes on behind a padded subframe. -/
theorem amsduLoop_padded {pad bytes : List UInt8} (padded : sub.PaddedBy pad)
    (split : tail = pad ++ bytes) :
    ∃ next : Buf, next.view = bytes ∧ ∀ fuel,
      amsduLoop platform env (fuel + 1) frame out state =
        amsduLoop platform env fuel next
          (sub.rxData platform env out state).2.1
          (sub.rxData platform env out state).2.2 := by
  obtain ⟨behind, viewed, round⟩ := amsduLoop_subframe short front
  have padding := (sub.paddedBy_iff pad).mp padded
  by_cases more : behind.len > 0
  · have enough : (4 - (14 + sub.body.length) % 4) % 4 ≤ behind.view.length := by
      rw [viewed, split, List.length_append, ← padding]
      exact Nat.le_add_right _ _
    obtain ⟨next, strip, viewedNext⟩ := bufStrip_of_le enough
    refine ⟨next, ?_, ?_⟩
    · rw [viewedNext, viewed, split, ← padding, List.drop_left]
    · intro fuel
      rw [round]
      dsimp only
      rw [if_neg accepted, if_pos more, strip]
  · have empty : pad ++ bytes = [] := by
      rw [← split, ← viewed, ← List.length_eq_zero_iff, behind.length_view]
      omega
    refine ⟨behind, ?_, ?_⟩
    · rw [viewed, split, empty, (List.append_eq_nil_iff.mp empty).2]
    · intro fuel
      rw [round]
      dsimp only
      rw [if_neg accepted, if_neg more]

end Round

/-- What is behind a subframe. -/
theorem AmsduSubframe.tail_cases (sub : AmsduSubframe) (tail : List UInt8) :
    tail = [] ∨ (tail ≠ [] ∧ tail.length < (4 - (14 + sub.body.length) % 4) % 4) ∨
      ∃ pad bytes, sub.PaddedBy pad ∧ tail = pad ++ bytes := by
  by_cases last : tail = []
  · exact Or.inl last
  by_cases cut : tail.length < (4 - (14 + sub.body.length) % 4) % 4
  · exact Or.inr (Or.inl ⟨last, cut⟩)
  · have padded : sub.PaddedBy (tail.take ((4 - (14 + sub.body.length) % 4) % 4)) := by
      rw [sub.paddedBy_iff, List.length_take]
      omega
    exact Or.inr (Or.inr ⟨_, _, padded, (List.take_append_drop _ tail).symm⟩)

/-! ## The loop -/

theorem shorter_next {sub : AmsduSubframe} {frame next : Buf} {tail pad : List UInt8} {fuel : Nat}
    (front : frame.view = sub.bytes ++ tail) (split : tail = pad ++ next.view)
    (enough : frame.len ≤ fuel + 1) : next.len ≤ fuel := by
  have length := congrArg List.length front
  rw [split, List.length_append, List.length_append, sub.length_bytes, frame.length_view,
    next.length_view] at length
  omega

theorem exists_fuel {sub : AmsduSubframe} {frame : Buf} {tail : List UInt8} {fuel : Nat}
    (front : frame.view = sub.bytes ++ tail) (enough : frame.len ≤ fuel) :
    ∃ rest, fuel = rest + 1 := by
  have length := congrArg List.length front
  rw [List.length_append, sub.length_bytes, frame.length_view] at length
  exact ⟨fuel - 1, by omega⟩

/-- More rounds than bytes make no difference. -/
theorem amsduLoop_fuel {fuel more : Nat} {frame : Buf} (enough : frame.len ≤ fuel)
    (fuelLe : fuel ≤ more) (out : List Buf) (state : AwdlState) :
    amsduLoop platform env more frame out state = amsduLoop platform env fuel frame out state := by
  induction fuel generalizing more frame out state with
  | zero =>
      have empty : frame.view = [] := by
        rw [← List.length_eq_zero_iff, frame.length_view]
        omega
      rw [amsduLoop_empty empty, amsduLoop_empty empty]
  | succ fuel ih =>
      obtain ⟨more, rfl⟩ : ∃ rest, more = rest + 1 := ⟨more - 1, by omega⟩
      by_cases empty : frame.view = []
      · rw [amsduLoop_empty empty, amsduLoop_empty empty]
      by_cases begins : ∃ sub tail, AmsduSubframe.Short sub ∧ frame.view = sub.bytes ++ tail
      · obtain ⟨sub, tail, short, front⟩ := begins
        by_cases accepted : (sub.rxData platform env out state).1.code < 0
        · rw [amsduLoop_rejected short front accepted, amsduLoop_rejected short front accepted]
        obtain last | ⟨rest, cut⟩ | ⟨pad, bytes, padded, split⟩ := sub.tail_cases tail
        · rw [amsduLoop_last short front accepted last, amsduLoop_last short front accepted last]
        · rw [amsduLoop_unpadded short front accepted rest cut,
            amsduLoop_unpadded short front accepted rest cut]
        · obtain ⟨next, viewed, round⟩ := amsduLoop_padded short front accepted padded split
          have shorter := shorter_next front (viewed ▸ split) enough
          rw [round, round, ih shorter (Nat.le_of_succ_le_succ fuelLe)]
      · rw [amsduLoop_incomplete empty begins, amsduLoop_incomplete empty begins]

/-- The subframes of a frame that the loop accepts. -/
theorem exists_amsduString {fuel : Nat} {frame : Buf} {out : List Buf} {state : AwdlState}
    (enough : frame.len ≤ fuel) (ok : (amsduLoop platform env fuel frame out state).1 = .ok) :
    ∃ subs, AmsduString subs frame.view ∧ ∀ sub ∈ subs, sub.Accepted platform env state := by
  induction fuel generalizing frame out state with
  | zero =>
      have empty : frame.view = [] := by
        rw [← List.length_eq_zero_iff, frame.length_view]
        omega
      exact ⟨[], empty ▸ .nil, fun sub among => absurd among List.not_mem_nil⟩
  | succ fuel ih =>
      by_cases empty : frame.view = []
      · exact ⟨[], empty ▸ .nil, fun sub among => absurd among List.not_mem_nil⟩
      by_cases begins : ∃ sub tail, AmsduSubframe.Short sub ∧ frame.view = sub.bytes ++ tail
      · obtain ⟨sub, tail, short, front⟩ := begins
        by_cases accepted : (sub.rxData platform env out state).1.code < 0
        · rw [amsduLoop_rejected short front accepted] at ok
          rw [ok] at accepted
          exact absurd accepted (by decide)
        have held := (sub.accepted_iff out state).mpr accepted
        obtain last | ⟨rest, cut⟩ | ⟨pad, bytes, padded, split⟩ := sub.tail_cases tail
        · rw [last, List.append_nil] at front
          refine ⟨[sub], front ▸ .last short, ?_⟩
          intro other among
          rw [List.mem_singleton.mp among]
          exact held
        · rw [amsduLoop_unpadded short front accepted rest cut] at ok
          cases ok
        · obtain ⟨next, viewed, round⟩ := amsduLoop_padded short front accepted padded split
          rw [round] at ok
          obtain ⟨subs, aggregate, all⟩ := ih (shorter_next front (viewed ▸ split) enough) ok
          rw [(sub.rxData_state out state).1] at all
          rw [split, ← viewed] at front
          refine ⟨sub :: subs, front ▸ .cons short padded aggregate, ?_⟩
          exact List.forall_mem_cons.mpr ⟨held, all⟩
      · rw [amsduLoop_incomplete empty begins] at ok
        cases ok

/-- The loop on an aggregate of accepted subframes. -/
theorem amsduLoop_amsduString {subs : List AmsduSubframe} {bytes : List UInt8}
    (aggregate : AmsduString subs bytes) {fuel : Nat} {frame : Buf} {out : List Buf}
    {state : AwdlState} (viewed : frame.view = bytes) (enough : frame.len ≤ fuel)
    (all : ∀ sub ∈ subs, sub.Accepted platform env state) :
    (amsduLoop platform env fuel frame out state).1 = .ok ∧
      (amsduLoop platform env fuel frame out state).2.1 =
        subs.foldl (AmsduSubframe.deliver platform env state) out := by
  induction aggregate generalizing fuel frame out state with
  | nil =>
      rw [amsduLoop_empty viewed]
      exact ⟨rfl, rfl⟩
  | @last sub short =>
      obtain ⟨fuel, rfl⟩ := exists_fuel (viewed.trans (List.append_nil _).symm) enough
      have accepted := (sub.accepted_iff out state).mp (all sub List.mem_cons_self)
      rw [amsduLoop_last short (viewed.trans (List.append_nil _).symm) accepted rfl]
      exact ⟨rfl, rfl⟩
  | @cons sub pad subs bytes short padded rest ih =>
      obtain ⟨fuel, rfl⟩ := exists_fuel viewed enough
      obtain ⟨held, others⟩ := List.forall_mem_cons.mp all
      have accepted := (sub.accepted_iff out state).mp held
      obtain ⟨next, viewedNext, round⟩ := amsduLoop_padded short viewed accepted padded rfl
      obtain ⟨sameAccepted, sameDeliver⟩ := sub.rxData_state out state
      have split : pad ++ bytes = pad ++ next.view := by rw [viewedNext]
      rw [← sameAccepted] at others
      have later := @ih fuel next (sub.rxData platform env out state).2.1
        (sub.rxData platform env out state).2.2 viewedNext (shorter_next viewed split enough) others
      rw [sameDeliver] at later
      rw [round, List.foldl_cons]
      exact later

/-- **The aggregates that `awdl_rx_data_amsdu` accepts, and what it delivers**: the
walk ends by itself, it returns `RX_OK` on sequences of padded subframes none of which
is rejected, the output is that of the subframes one by one, and subframes of unknown
sources are passed over. -/
theorem awdlRxDataAmsdu_grammar (platform : Platform) (env : RxEnv) (frame : Buf)
    (out : List Buf) (src dst : EtherAddr) (state : AwdlState) :
    (∀ fuel, frame.len ≤ fuel → amsduLoop platform env fuel frame out state =
        awdlRxDataAmsdu platform env frame out src dst state) ∧
      ((awdlRxDataAmsdu platform env frame out src dst state).1 = .ok ↔
        ∃ subs, AmsduString subs frame.view ∧ ∀ sub ∈ subs, sub.Accepted platform env state) ∧
      (∀ subs, AmsduString subs frame.view → (∀ sub ∈ subs, sub.Accepted platform env state) →
        (awdlRxDataAmsdu platform env frame out src dst state).2.1 =
          subs.foldl (AmsduSubframe.deliver platform env state) out) ∧
      ∀ (sub : AmsduSubframe) (before : List Buf), ¬Knows platform.hash state sub.src →
        sub.Accepted platform env state ∧ sub.deliver platform env state before = before := by
  refine ⟨?_, ⟨?_, ?_⟩, ?_, ?_⟩
  · intro fuel enough
    exact amsduLoop_fuel (Nat.le_refl _) enough out state
  · exact exists_amsduString (Nat.le_refl _)
  · rintro ⟨subs, aggregate, all⟩
    exact (amsduLoop_amsduString aggregate rfl (Nat.le_refl _) all).1
  · intro subs aggregate all
    exact (amsduLoop_amsduString aggregate rfl (Nat.le_refl _) all).2
  · intro sub before unknown
    unfold AmsduSubframe.Accepted AmsduSubframe.deliver AmsduSubframe.rxData
    rw [awdlRxData_unknown unknown, awdlRxData_unknown unknown]
    exact ⟨show (0 : Int) ≤ RxResult.code .ignorePeer by decide, rfl⟩

end Owl

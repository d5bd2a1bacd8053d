import AislabVP.SystemC.QemuCpu

/-!
# Honest answers of the dispatcher

A read or write request is answered honestly when exactly one response goes
back to its sender, when that response says `VP_OK` exactly if the target
transferred the requested bytes, and when otherwise it says `VP_FAIL` and the
memory is as before.

`thread_process` meets this on the requests the target can carry out, and on
no other.  Two things go wrong elsewhere.  A transaction that ends in error
throws, so there is no response at all.  And the 64-bit length of the request is
narrowed to the 32-bit length of the transaction before any check sees it, so a
request of `2 ^ 32 + 1` bytes is answered `VP_OK` after one byte.
-/

namespace AislabVP
namespace SystemC

open Foundation Vpipc

/-- The transaction that the dispatcher makes of a request. -/
def requestTransaction (vpt : VpTransfer) : Option TlmPayload :=
  match VpType.ofCode vpt.data.type with
  | some .vpWrite => some (writeTransaction vpt.data)
  | some .vpRead => some (readTransaction vpt.data)
  | _ => none

/-- `Memory::b_transport` finishes with `TLM_OK_RESPONSE` for a transfer of
exactly the requested bytes at the requested address. -/
def TransferredExactly (cpu : QemuCpu) (vpt : VpTransfer) : Prop :=
  ∃ trans, requestTransaction vpt = some trans ∧
    (cpu.memory.bTransport trans).2.responseStatus = .ok ∧
    trans.address = vpt.data.addr ∧
    trans.dataLength.toNat = vpt.data.length.toNat

/-- The responses sent for a request: none when a report leaves the thread. -/
def QemuCpu.responsesSent (cpu : QemuCpu) (vpt : VpTransfer) : List VpTransfer :=
  match (cpu.dispatch vpt).2 with
  | .ok resp => [resp]
  | .error _ => []

/-- The dispatcher answers the request once and truthfully. -/
structure HonestAnswer (cpu : QemuCpu) (vpt : VpTransfer) : Prop where
  one_response : ∃ resp, cpu.responsesSent vpt = [resp] ∧ resp.sockFd = vpt.sockFd
  ok_iff : ∀ resp ∈ cpu.responsesSent vpt,
    resp.data.status = vpOk ↔ TransferredExactly cpu vpt
  otherwise_fail : ¬TransferredExactly cpu vpt →
    (∀ resp ∈ cpu.responsesSent vpt, resp.data.status = vpFail) ∧
      (cpu.dispatch vpt).1.memory = cpu.memory

/-! ## One turn of the loop -/

/-- The record that answers an executed write; `data` is left over. -/
def writeResponse (cpu : QemuCpu) (vpt : VpTransfer) : VpTransfer where
  sockFd := vpt.sockFd
  data := { cpu.vptResp.data with
    type := VpType.vpWriteResp.code
    length := vpOk
    addr := vpt.data.addr }

/-- The record that answers an executed read. -/
def readResponse (vpt : VpTransfer) (data : BitVec 64) : VpTransfer where
  sockFd := vpt.sockFd
  data :=
    { type := VpType.vpReadResp.code, length := vpOk, addr := vpt.data.addr, data := data }

theorem dispatch_read (cpu : QemuCpu) (vpt : VpTransfer)
    (htype : vpt.data.type = VpType.vpRead.code)
    (haccepts : Accepts (readTransaction vpt.data)) :
    let resp := readResponse vpt (BitVec.ofNat 64 (leValue
      (readBytes cpu.memory.mem (4 * (vpt.data.addr.toNat / 4))
        (vpt.data.length.setWidth 32).toNat)))
    cpu.dispatch vpt = ({ memory := cpu.memory, vptResp := resp }, .ok resp) := by
  simp only [QemuCpu.dispatch, htype, VpType.ofCode_code, tlmRead_of_accepts _ haccepts,
    readResponse]

theorem dispatch_write (cpu : QemuCpu) (vpt : VpTransfer)
    (htype : vpt.data.type = VpType.vpWrite.code)
    (haccepts : Accepts (writeTransaction vpt.data)) :
    cpu.dispatch vpt =
      ({ memory :=
          { mem := writeBytes cpu.memory.mem (4 * (vpt.data.addr.toNat / 4))
              (leBytes (vpt.data.length.setWidth 32).toNat vpt.data.data.toNat) }
         vptResp := writeResponse cpu vpt },
        .ok (writeResponse cpu vpt)) := by
  simp only [QemuCpu.dispatch, htype, VpType.ofCode_code, tlmWrite_of_accepts _ haccepts,
    writeResponse]

theorem responsesSent_of_dispatch {cpu next : QemuCpu} {vpt resp : VpTransfer}
    (hdispatch : cpu.dispatch vpt = (next, .ok resp)) :
    cpu.responsesSent vpt = [resp] := by
  rw [QemuCpu.responsesSent, hdispatch]

/-- The record that answers any other message; `addr` and `data` are left over. -/
def errorResponse (cpu : QemuCpu) (vpt : VpTransfer) : VpTransfer where
  sockFd := vpt.sockFd
  data := { cpu.vptResp.data with type := VpType.vpError.code, length := vpFail }

theorem dispatch_default (cpu : QemuCpu) {vpt : VpTransfer}
    (hnone : requestTransaction vpt = none) :
    cpu.dispatch vpt =
      ({ cpu with vptResp := errorResponse cpu vpt }, .ok (errorResponse cpu vpt)) := by
  unfold requestTransaction at hnone
  unfold QemuCpu.dispatch
  cases htype : VpType.ofCode vpt.data.type with
  | none => rfl
  | some type =>
      rw [htype] at hnone
      cases type with
      | vpWrite => cases hnone
      | vpRead => cases hnone
      | vpRaiseIrq | vpWriteResp | vpReadResp | vpRaiseIrqResp | vpError => rfl

/-- A refused transaction sends nothing and leaves the memory alone. -/
theorem dispatch_of_not_accepts (cpu : QemuCpu) (vpt : VpTransfer) {trans : TlmPayload}
    (htrans : requestTransaction vpt = some trans) (hrefused : ¬Accepts trans) :
    cpu.responsesSent vpt = [] ∧ (cpu.dispatch vpt).1.memory = cpu.memory := by
  unfold requestTransaction at htrans
  split at htrans
  · rename_i htype
    obtain rfl := Option.some.inj htrans
    simp [QemuCpu.responsesSent, QemuCpu.dispatch, htype,
      tlmWrite_of_not_accepts _ hrefused]
  · rename_i htype
    obtain rfl := Option.some.inj htrans
    simp [QemuCpu.responsesSent, QemuCpu.dispatch, htype,
      tlmRead_of_not_accepts _ hrefused]
  · cases htrans

/-- A turn answers unless the target refuses its transaction. -/
theorem dispatch_answers_iff (cpu : QemuCpu) (vpt : VpTransfer) :
    (∃ next resp, cpu.dispatch vpt = (next, .ok resp)) ↔
      ∀ trans ∈ requestTransaction vpt, Accepts trans := by
  constructor
  · rintro ⟨next, resp, hdispatch⟩ trans htrans
    by_contra hrefused
    have hsent := (dispatch_of_not_accepts cpu vpt htrans hrefused).1
    rw [responsesSent_of_dispatch hdispatch] at hsent
    cases hsent
  · intro haccepts
    cases htrans : requestTransaction vpt with
    | none => exact ⟨_, _, dispatch_default cpu htrans⟩
    | some trans =>
        have htaken := haccepts trans htrans
        unfold requestTransaction at htrans
        split at htrans
        · rename_i htype
          obtain rfl := Option.some.inj htrans
          exact ⟨_, _, dispatch_write cpu vpt (VpType.code_of_ofCode htype) htaken⟩
        · rename_i htype
          obtain rfl := Option.some.inj htrans
          exact ⟨_, _, dispatch_read cpu vpt (VpType.code_of_ofCode htype) htaken⟩
        · cases htrans

/-- What a turn that answers can be. -/
theorem dispatch_ok_cases {cpu next : QemuCpu} {vpt resp : VpTransfer}
    (hdispatch : cpu.dispatch vpt = (next, .ok resp)) :
    next.vptResp = resp ∧
      ((vpt.data.type = VpType.vpWrite.code ∧ Accepts (writeTransaction vpt.data) ∧
          resp = writeResponse cpu vpt) ∨
        (vpt.data.type = VpType.vpRead.code ∧ Accepts (readTransaction vpt.data) ∧
          ∃ data, resp = readResponse vpt data) ∨
        (requestTransaction vpt = none ∧ resp = errorResponse cpu vpt)) := by
  cases htrans : requestTransaction vpt with
  | none =>
      rw [dispatch_default cpu htrans] at hdispatch
      obtain ⟨rfl, hresp⟩ := Prod.mk.inj hdispatch
      obtain rfl := Except.ok.inj hresp
      exact ⟨rfl, Or.inr (Or.inr ⟨rfl, rfl⟩)⟩
  | some trans =>
      have haccepts := (dispatch_answers_iff cpu vpt).mp ⟨next, resp, hdispatch⟩ trans htrans
      unfold requestTransaction at htrans
      split at htrans
      · rename_i htype
        obtain rfl := Option.some.inj htrans
        have hcode := VpType.code_of_ofCode htype
        rw [dispatch_write cpu vpt hcode haccepts] at hdispatch
        obtain ⟨rfl, hresp⟩ := Prod.mk.inj hdispatch
        obtain rfl := Except.ok.inj hresp
        exact ⟨rfl, Or.inl ⟨hcode, haccepts, rfl⟩⟩
      · rename_i htype
        obtain rfl := Option.some.inj htrans
        have hcode := VpType.code_of_ofCode htype
        rw [dispatch_read cpu vpt hcode haccepts] at hdispatch
        obtain ⟨rfl, hresp⟩ := Prod.mk.inj hdispatch
        obtain rfl := Except.ok.inj hresp
        exact ⟨rfl, Or.inr (Or.inl ⟨hcode, haccepts, _, rfl⟩)⟩
      · cases htrans

/-- An accepted transaction is answered once, with `VP_OK`, to its sender. -/
theorem responsesSent_of_accepts (cpu : QemuCpu) (vpt : VpTransfer) {trans : TlmPayload}
    (htrans : requestTransaction vpt = some trans) (haccepts : Accepts trans) :
    ∃ resp, cpu.responsesSent vpt = [resp] ∧ resp.sockFd = vpt.sockFd ∧
      resp.data.status = vpOk := by
  unfold requestTransaction at htrans
  split at htrans
  · rename_i htype
    obtain rfl := Option.some.inj htrans
    have hdispatch := dispatch_write cpu vpt (VpType.code_of_ofCode htype) haccepts
    exact ⟨_, responsesSent_of_dispatch hdispatch, rfl, rfl⟩
  · rename_i htype
    obtain rfl := Option.some.inj htrans
    have hdispatch := dispatch_read cpu vpt (VpType.code_of_ofCode htype) haccepts
    exact ⟨_, responsesSent_of_dispatch hdispatch, rfl, rfl⟩
  · cases htrans

/-! ## When the answer is honest -/

theorem requestTransaction_eq_some_iff {vpt : VpTransfer} :
    (∃ trans, requestTransaction vpt = some trans) ↔
      vpt.data.type = VpType.vpRead.code ∨ vpt.data.type = VpType.vpWrite.code := by
  constructor
  · rintro ⟨trans, htrans⟩
    unfold requestTransaction at htrans
    split at htrans
    · rename_i htype
      exact Or.inr (VpType.code_of_ofCode htype)
    · rename_i htype
      exact Or.inl (VpType.code_of_ofCode htype)
    · cases htrans
  · rintro (htype | htype)
    · exact ⟨readTransaction vpt.data, by simp [requestTransaction, htype]⟩
    · exact ⟨writeTransaction vpt.data, by simp [requestTransaction, htype]⟩

/-- What the transaction of a request looks like, whatever its command. -/
theorem requestTransaction_fields {vpt : VpTransfer} {trans : TlmPayload}
    (htrans : requestTransaction vpt = some trans) :
    trans.address = vpt.data.addr ∧ trans.dataLength = vpt.data.length.setWidth 32 ∧
      (Accepts trans ↔ vpt.data.addr.toNat / 4 < memorySize ∧
        (vpt.data.length.setWidth 32).toNat ≤ 4) := by
  unfold requestTransaction at htrans
  split at htrans
  · obtain rfl := Option.some.inj htrans
    exact ⟨rfl, rfl, accepts_setupTransaction_iff _ _ _⟩
  · obtain rfl := Option.some.inj htrans
    exact ⟨rfl, rfl, accepts_setupTransaction_iff _ _ _⟩
  · cases htrans

theorem bTransport_ok_iff (memory : Memory) (trans : TlmPayload) :
    (memory.bTransport trans).2.responseStatus = .ok ↔ Accepts trans := by
  constructor
  · intro hok
    by_contra hrefused
    exact (bTransport_of_not_accepts memory hrefused).2.1 hok
  · intro haccepts
    rw [bTransport_of_accepts memory haccepts]
    cases trans.command <;> rfl

/-- The narrowed length is the requested one exactly when it fits 32 bits. -/
theorem transferredExactly_iff (cpu : QemuCpu) {vpt : VpTransfer}
    (hrequest : vpt.data.type = VpType.vpRead.code ∨
      vpt.data.type = VpType.vpWrite.code) :
    TransferredExactly cpu vpt ↔
      vpt.data.addr.toNat / 4 < memorySize ∧ vpt.data.length.toNat ≤ 4 := by
  obtain ⟨trans, htrans⟩ := requestTransaction_eq_some_iff.mpr hrequest
  obtain ⟨haddress, hlength, haccepts⟩ := requestTransaction_fields htrans
  have hwidth : (vpt.data.length.setWidth 32).toNat = vpt.data.length.toNat % 2 ^ 32 :=
    BitVec.toNat_setWidth 32 vpt.data.length
  constructor
  · -- The transaction is the one of the request, and it kept the length.
    rintro ⟨other, hother, hok, -, hexact⟩
    obtain rfl := Option.some.inj (htrans.symm.trans hother)
    obtain ⟨hadr, hlen⟩ := haccepts.mp ((bTransport_ok_iff _ _).mp hok)
    rw [hlength] at hexact
    exact ⟨hadr, hexact ▸ hlen⟩
  · rintro ⟨hadr, hlen⟩
    have hnarrow : (vpt.data.length.setWidth 32).toNat = vpt.data.length.toNat := by
      rw [hwidth]
      exact Nat.mod_eq_of_lt (by omega)
    refine ⟨trans, htrans, ?_, haddress, hlength ▸ hnarrow⟩
    exact (bTransport_ok_iff _ _).mpr (haccepts.mpr ⟨hadr, hnarrow ▸ hlen⟩)

/-- The dispatcher is honest about exactly the requests that name at most four
bytes, as a 64-bit number, inside the target. -/
theorem honestAnswer_iff (cpu : QemuCpu) (vpt : VpTransfer)
    (hrequest : vpt.data.type = VpType.vpRead.code ∨
      vpt.data.type = VpType.vpWrite.code) :
    HonestAnswer cpu vpt ↔
      vpt.data.addr.toNat / 4 < memorySize ∧ vpt.data.length.toNat ≤ 4 := by
  rw [← transferredExactly_iff cpu hrequest]
  obtain ⟨trans, htrans⟩ := requestTransaction_eq_some_iff.mpr hrequest
  constructor
  · intro hhonest
    rcases hhonest.one_response with ⟨resp, hsent, -⟩
    -- A response was sent, so the target accepted and the response says `VP_OK`.
    by_cases haccepts : Accepts trans
    · obtain ⟨other, hother, -, hok⟩ := responsesSent_of_accepts cpu vpt htrans haccepts
      exact (hhonest.ok_iff other (by simp [hother])).mp hok
    · have hnone := (dispatch_of_not_accepts cpu vpt htrans haccepts).1
      rw [hsent] at hnone
      cases hnone
  · intro hexact
    have haccepts : Accepts trans := by
      rcases hexact with ⟨other, hother, hok, -⟩
      obtain rfl := Option.some.inj (htrans.symm.trans hother)
      exact (bTransport_ok_iff _ _).mp hok
    obtain ⟨resp, hsent, hfd, hok⟩ := responsesSent_of_accepts cpu vpt htrans haccepts
    refine ⟨⟨resp, hsent, hfd⟩, ?_, fun hnot => absurd hexact hnot⟩
    intro other hother
    rw [hsent] at hother
    obtain rfl := List.mem_singleton.mp hother
    exact ⟨fun _ => hexact, fun _ => hok⟩

/-- The word access at the start of the device window. -/
theorem honestAnswer_word_read :
    let cpu : QemuCpu := { memory := { mem := fun _ => 0 }, vptResp := default }
    let vpt : VpTransfer :=
      { sockFd := 7
        data := { type := VpType.vpRead.code, length := 4, addr := 0x6000000, data := 0 } }
    (vpt.data.type = VpType.vpRead.code ∨ vpt.data.type = VpType.vpWrite.code) ∧
      HonestAnswer cpu vpt := by
  intro cpu vpt
  have hrequest : vpt.data.type = VpType.vpRead.code ∨
      vpt.data.type = VpType.vpWrite.code := by decide
  exact ⟨hrequest, (honestAnswer_iff cpu vpt hrequest).mpr (by decide)⟩

/-- Two requests that are not answered honestly: eight bytes get no answer, and
`2 ^ 32 + 1` bytes are confirmed after one. -/
theorem dishonest_lengths :
    let cpu : QemuCpu := { memory := { mem := fun _ => 0 }, vptResp := default }
    let eight : VpTransfer :=
      { sockFd := 7
        data := { type := VpType.vpRead.code, length := 8, addr := 0x6000000, data := 0 } }
    let huge : VpTransfer :=
      { sockFd := 7
        data := { type := VpType.vpRead.code, length := 0x100000001, addr := 0x6000000,
                  data := 0 } }
    cpu.responsesSent eight = [] ∧ ¬HonestAnswer cpu eight ∧
      (∃ resp, cpu.responsesSent huge = [resp] ∧ resp.data.status = vpOk) ∧
      ¬HonestAnswer cpu huge := by
  intro cpu eight huge
  have hreadEight : requestTransaction eight = some (readTransaction eight.data) := rfl
  have hreadHuge : requestTransaction huge = some (readTransaction huge.data) := rfl
  have height : cpu.responsesSent eight = [] :=
    (dispatch_of_not_accepts cpu eight hreadEight (by decide)).1
  refine ⟨height, ?_, ?_, ?_⟩
  · intro hhonest
    rcases hhonest.one_response with ⟨resp, hsent, -⟩
    rw [height] at hsent
    cases hsent
  · obtain ⟨resp, hsent, -, hok⟩ := responsesSent_of_accepts cpu huge hreadHuge (by decide)
    exact ⟨resp, hsent, hok⟩
  · intro hhonest
    obtain ⟨resp, hsent, -, hok⟩ := responsesSent_of_accepts cpu huge hreadHuge (by decide)
    have hexact := (hhonest.ok_iff resp (by simp [hsent])).mp hok
    have hlength := ((transferredExactly_iff cpu (Or.inl rfl)).mp hexact).2
    exact absurd hlength (by decide)

end SystemC
end AislabVP

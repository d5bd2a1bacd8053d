import AislabVP.Foundation.Runs
import AislabVP.Qemu.MmioBus
import AislabVP.Vpipc.CallerArray

/-!
# The length of the copies

`tcp_thread_func` copies between guest memory and its local `uint64_t value`, and the
`length` of the message is the number of bytes.  The word comes from the peer;
`vp_wait` passes it on and no branch looks at it first.

`CopySafe` asks of one turn that the copy stays inside `value` and that a request of
more than eight bytes is refused.  A turn meets it if and only if the request is
not longer, or is of a type that the `default` branch refuses anyway
(`copySafe_iff`); over runs this holds at every turn (`run_copySafe_iff`).
-/

namespace AislabVP
namespace Qemu

open Foundation Vpipc

/-- The number of bytes of `value` that the branch of a message has copied. -/
def bytesCopied (vpt : VpTransfer) : Nat :=
  match VpType.ofCode vpt.data.type with
  -- The third argument of `cpu_physical_memory_write`.
  | some .vpWrite => vpt.data.length.toNat
  -- The third argument of `cpu_physical_memory_read`.
  | some .vpRead => vpt.data.length.toNat
  | _ => 0

section Turn

variable {Guest : Type*}

/-- The request is answered `VP_ERROR` with `VP_FAIL`, and apart from the response
neither guest memory nor a local variable is changed. -/
def Refused (mem : PhysicalMemory Guest) (thread : TcpThread Guest) (vpt : VpTransfer) : Prop :=
  ∃ next, thread.serve mem vpt = some next ∧ next.vptResp.sockFd = vpt.sockFd ∧
    next.vptResp.data.type = VpType.vpError.code ∧ next.vptResp.data.status = vpFail ∧
    next.guest = thread.guest ∧ next.value = thread.value

/-- The copy of the turn stays inside `value`, and a longer request is refused. -/
structure CopySafe (mem : PhysicalMemory Guest) (thread : TcpThread Guest) (vpt : VpTransfer) :
    Prop where
  inside : bytesCopied vpt ≤ sizeofValue
  refused : sizeofValue < vpt.data.length.toNat → Refused mem thread vpt

/-- The request is of one of the three types that have a branch of their own. -/
def HasBranch (vpt : VpTransfer) : Prop :=
  vpt.data.type = VpType.vpWrite.code ∨ vpt.data.type = VpType.vpRead.code ∨
    vpt.data.type = VpType.vpRaiseIrq.code

instance (vpt : VpTransfer) : Decidable (HasBranch vpt) :=
  inferInstanceAs (Decidable (_ ∨ _))

variable {mem : PhysicalMemory Guest} {thread : TcpThread Guest} {vpt : VpTransfer}

/-- What is left to the `default` branch copies nothing and is refused. -/
theorem default_of_not_hasBranch (mem : PhysicalMemory Guest) (thread : TcpThread Guest)
    (hbranch : ¬HasBranch vpt) :
    bytesCopied vpt = 0 ∧ thread.serve mem vpt = some (thread.serveDefault vpt) := by
  unfold HasBranch at hbranch
  simp only [not_or] at hbranch
  obtain ⟨hwrite, hread, hraise⟩ := hbranch
  unfold bytesCopied TcpThread.serve
  cases htype : VpType.ofCode vpt.data.type with
  | none => exact ⟨rfl, rfl⟩
  | some type =>
      have hcode := VpType.code_of_ofCode htype
      cases type with
      | vpWrite => exact absurd hcode hwrite
      | vpRead => exact absurd hcode hread
      | vpRaiseIrq => exact absurd hcode hraise
      | vpWriteResp | vpReadResp | vpRaiseIrqResp | vpError => exact ⟨rfl, rfl⟩

theorem bytesCopied_le_length (vpt : VpTransfer) : bytesCopied vpt ≤ vpt.data.length.toNat := by
  unfold bytesCopied
  split
  · exact le_refl _
  · exact le_refl _
  · exact Nat.zero_le _

/-- A branch of its own does not refuse a request of more than eight bytes. -/
theorem not_refused_of_hasBranch (hbranch : HasBranch vpt)
    (hlong : sizeofValue < vpt.data.length.toNat) : ¬Refused mem thread vpt := by
  have hreturns : copyReturns vpt.data.addr vpt.data.length = false := by
    rw [copyReturns, decide_eq_false (Nat.not_le.mpr hlong)]
    rfl
  rintro ⟨next, hserve, -, htype, -⟩
  unfold TcpThread.serve at hserve
  rcases hbranch with hwrite | hread | hraise
  · rw [hwrite, VpType.ofCode_code] at hserve
    simp [hreturns] at hserve
  · rw [hread, VpType.ofCode_code] at hserve
    simp [hreturns] at hserve
  · -- The interrupt request is carried out: its length plays no part.
    rw [hraise, VpType.ofCode_code] at hserve
    obtain rfl := Option.some.inj hserve
    have hresp : VpType.vpRaiseIrqResp.code = VpType.vpError.code := htype
    exact absurd hresp (by decide)

/-- One turn is safe if and only if the request is of at most eight bytes or has no
branch of its own. -/
theorem copySafe_iff :
    CopySafe mem thread vpt ↔ vpt.data.length.toNat ≤ sizeofValue ∨ ¬HasBranch vpt := by
  by_cases hlong : vpt.data.length.toNat ≤ sizeofValue
  · exact iff_of_true
      ⟨(bytesCopied_le_length vpt).trans hlong, fun h => absurd h (Nat.not_lt.mpr hlong)⟩
      (Or.inl hlong)
  · have hover : sizeofValue < vpt.data.length.toNat := Nat.not_le.mp hlong
    simp only [hlong, false_or]
    constructor
    · intro hsafe hbranch
      exact not_refused_of_hasBranch hbranch hover (hsafe.refused hover)
    · intro hbranch
      obtain ⟨hnone, hserve⟩ := default_of_not_hasBranch mem thread hbranch
      exact ⟨hnone.trans_le (Nat.zero_le _), fun _ => ⟨_, hserve, rfl, rfl, rfl, rfl, rfl⟩⟩

end Turn

/-- In every run of the loop, from any content of its variables and over any messages,
all turns are safe if and only if all messages met are of at most eight bytes or of a
type that the loop refuses. -/
theorem run_copySafe_iff {Guest : Type*} (mem : PhysicalMemory Guest) (thread : TcpThread Guest)
    (requests : List VpTransfer) :
    GuardedRun (TcpThread.serve mem) (CopySafe mem) thread requests ↔
      GuardedRun (TcpThread.serve mem)
        (fun _ vpt => vpt.data.length.toNat ≤ sizeofValue ∨ ¬HasBranch vpt) thread requests :=
  guardedRun_congr (fun _ _ => copySafe_iff) thread requests

/-- A read request for nine bytes of RAM. -/
def nineByteRead : VpTransferData where
  type := VpType.vpRead.code
  length := 9
  addr := 0x80000000
  data := 0

/-- `vp_wait` delivers the request as it was sent, and nine bytes are copied into the
eight of `value`. -/
theorem nine_bytes_are_copied :
    (vpWait .qemu { type := .server, epollFd := 3, sockFd := 5, serverFd := 4 }
        (some [EpollEvent.input 5 (.piece (Piece.whole nineByteRead))])).vpt =
      [{ sockFd := 5, data := nineByteRead }] ∧
    bytesCopied { sockFd := 5, data := nineByteRead } = 9 ∧
    ∀ (Guest : Type) (mem : PhysicalMemory Guest) (thread : TcpThread Guest),
      ¬GuardedRun (TcpThread.serve mem) (CopySafe mem) thread
        [{ sockFd := 5, data := nineByteRead }] := by
  refine ⟨rfl, rfl, fun Guest mem thread hrun => ?_⟩
  have hinside := hrun.1.inside
  exact absurd hinside (by decide)

end Qemu
end AislabVP

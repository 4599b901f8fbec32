import NodeHealth.Net.Dial
import NodeHealth.Proofs.Net.Acts

/-!
# What becomes of an attempt to connect

An attempt has led to a connection, was refused, was given up, or waits, for the addresses of
the host or for an answer; only the last of these goes on.

-/

namespace NodeHealth

namespace Dial

variable {dial : Dial} {now : Instant} {net : Net}

/-- How an attempt stands, with the outcome that it has. -/
inductive Stands (dial : Dial) (now : Instant) (net : Net) : Prop
  | connected {link : LinkId} (hattempt : net.attempt dial.attempt = .connected link)
      (houtcome : dial.outcome? now net = some (net, .ok link))
  | refused {failure : IoFailure}
      (hattempt : (net.attempt dial.attempt).refusal? = some failure)
      (houtcome : dial.outcome? now net = some (net, .error (.io failure)))
  | abandoned (hattempt : net.attempt dial.attempt = .abandoned)
      (houtcome : dial.outcome? now net = some (net, .error .timeout))
  | expired (hattempt : (net.attempt dial.attempt).isWaiting = true)
      (hdeadline : dial.deadline ≤ now)
      (houtcome : dial.outcome? now net = some (net.abandon dial.attempt, .error .timeout))
  | waits (hattempt : (net.attempt dial.attempt).isWaiting = true)
      (hdeadline : now < dial.deadline) (houtcome : dial.outcome? now net = none)

/-- An attempt that waits is given up at its deadline. -/
theorem stands_of_isWaiting (hattempt : (net.attempt dial.attempt).isWaiting = true)
    (houtcome : dial.outcome? now net =
      if dial.deadline ≤ now then some (net.abandon dial.attempt, .error .timeout) else none) :
    dial.Stands now net := by
  by_cases hdeadline : dial.deadline ≤ now
  · exact .expired hattempt hdeadline (houtcome.trans (if_pos hdeadline))
  · exact .waits hattempt (Nat.lt_of_not_le hdeadline) (houtcome.trans (if_neg hdeadline))

theorem stands (dial : Dial) (now : Instant) (net : Net) : dial.Stands now net := by
  cases hattempt : net.attempt dial.attempt with
  | resolving host port =>
      exact stands_of_isWaiting (by rw [hattempt]; rfl) (by simp only [outcome?, hattempt])
  | waiting target =>
      exact stands_of_isWaiting (by rw [hattempt]; rfl) (by simp only [outcome?, hattempt])
  | connected link => exact .connected hattempt (by simp only [outcome?, hattempt])
  | failed cause =>
      refine @Stands.refused _ _ _ (.ofSystem cause) (by rw [hattempt]; rfl) ?_
      simp only [outcome?, hattempt, ConnectionError.ofCause]
  | unresolved failure =>
      exact .refused (by rw [hattempt]; rfl) (by simp only [outcome?, hattempt])
  | abandoned => exact .abandoned hattempt (by simp only [outcome?, hattempt])

end Dial

/-! ## Deadlines that follow each other -/

theorem second_deadline {begun connected now timeout : Nat}
    (hconnected : connected ≤ begun + timeout) (hnow : now ≤ connected + timeout) :
    now ≤ begun + 2 * timeout := by
  omega

theorem first_of_three {begun now timeout : Nat} (h : now ≤ begun + timeout) :
    now ≤ begun + 3 * timeout := by
  omega

theorem second_of_three {begun now timeout : Nat} (h : now ≤ begun + 2 * timeout) :
    now ≤ begun + 3 * timeout := by
  omega

theorem third_deadline {begun sent timeout : Nat} (h : sent ≤ begun + 2 * timeout) :
    sent + timeout ≤ begun + 3 * timeout := by
  omega

end NodeHealth

import VaidSuite.Expiry
import VaidSuite.Lib.Calendar
import VaidSuite.Python.ChainSpec
import VaidSuite.TypeScript.Presented

/-! Expiries that are whole seconds in UTC. The three hosts read, compare and contain them alike. -/

namespace VaidSuite.Expiry

open JsonText (codes)
open Rfc3339 (Stamp)

structure IsWholeSecond (s : String) (stamp : Stamp) : Prop where
  text : codes s = stamp.text
  zulu : stamp.zone = .zulu false
  whole : stamp.fraction = []
  plain : stamp.second ≠ 60
  since : 1970 ≤ stamp.year
  fourDigits : stamp.year ≤ 9999

namespace IsWholeSecond

variable {s : String} {stamp : Stamp} (h : IsWholeSecond s stamp)

include h

theorem parse : Rfc3339.parse (codes s) = some stamp :=
  h.text ▸ Rfc3339.parse_text h.zulu h.whole h.fourDigits

theorem inPython : inPython stamp = true := by
  have year : stamp.year ≠ 0 := by
    have := h.since
    omega
  rw [Expiry.inPython, h.zulu, bne_iff_ne.mpr h.plain, bne_iff_ne.mpr year]
  rfl

theorem parts (unit : Nat) : stamp.parts unit = 0 := by
  rw [Stamp.parts, h.whole]
  show 0 * unit / 1 = 0
  rw [Nat.zero_mul]

theorem inUtcYears : InUtcYears stamp := by
  have last := stamp.days_lt h.fourDigits
  have first : 366 ≤ Rfc3339.daysBeforeYear stamp.year := by
    have := Rfc3339.daysBeforeYear_mono (Nat.le_trans (by decide : 1 ≤ 1970) h.since)
    exact Nat.le_trans (by decide) this
  obtain ⟨-, day, hour, minute, -⟩ := stamp.limits
  have unfolded : stamp.days = Rfc3339.daysBeforeYear stamp.year +
    Rfc3339.daysBeforeMonth stamp.year stamp.month + (stamp.day - 1) - 719528 := rfl
  have noOffset : stamp.zone.seconds = 0 := by rw [h.zulu]; rfl
  unfold InUtcYears Stamp.seconds
  rw [noOffset]
  omega

end IsWholeSecond

section Readings

variable [Chrono] [Python.Libraries] [TypeScript.Runtime]
variable (reads : ReadsTimestamps) {s : String} {stamp : Stamp}

include reads

theorem chrono_reads (h : IsWholeSecond s stamp) :
    Chrono.parseFromRfc3339 s = some ⟨stamp.seconds, 0⟩ := by
  rw [reads.parseFromRfc3339 s stamp h.parse, chronoInstant, h.parts, if_neg h.plain]

theorem python_reads (h : IsWholeSecond s stamp) {d : Python.Presented}
    (given : d.dict.get "expires_at" = .str (Python.py s)) : ∃ e : Python.UtcDatetime,
      (e.val : Int) = (stamp.seconds + 62135596800) * 1000000 ∧ d.expiresAt = some e ∧ d.Timely := by
  have micros : pythonMicros stamp = (stamp.seconds + 62135596800) * 1000000 := by
    rw [pythonMicros, h.parts]
    exact add_zero _
  have inYears := (inUtcYears_iff stamp).mp h.inUtcYears
  have read : Python.parseRfc3339 (d.dict.get "expires_at") =
      .ok (some ⟨(pythonMicros stamp).toNat, by omega⟩) := by
    rw [given, Python.parseRfc3339, reads.fromisoformat s stamp h.parse, if_pos h.inPython]
    dsimp only
    rw [Python.utcDatetime, dif_pos inYears]
    rfl
  refine ⟨⟨(pythonMicros stamp).toNat, by omega⟩, (Int.toNat_of_nonneg inYears.1).trans micros, ?_,
    d.timely_of_parse read⟩
  rw [Python.Presented.expiresAt, read]

theorem typescript_reads (h : IsWholeSecond s stamp) {d : TypeScript.Presented}
    (given : d.members.get "expires_at" = .str (TypeScript.js s)) :
    d.expiresAt = some (stamp.seconds * 1000) := by
  have short : stamp.fraction.length ≤ 9 := by rw [h.whole]; exact Nat.zero_le _
  rw [TypeScript.Presented.expiresAt, given, TypeScript.parseRfc3339, if_pos (hasOffset_of_parse h.parse),
    reads.dateParse s stamp h.parse short, if_neg h.plain, dateMillis, h.parts]
  exact congrArg some (add_zero _)

end Readings

section Documents

variable [Chrono] [Python.Libraries] [TypeScript.Runtime]

structure ExpiresWhole (vaid : Vaid) (d : Python.Presented) (t : TypeScript.Presented) (stamp : Stamp) :
    Prop where
  whole : IsWholeSecond vaid.expiresAtAsPresented stamp
  dict : d.dict.get "expires_at" = .str (Python.py vaid.expiresAtAsPresented)
  document : t.members.get "expires_at" = .str (TypeScript.js vaid.expiresAtAsPresented)

variable {vaid : Vaid} {d : Python.Presented} {t : TypeScript.Presented} {stamp : Stamp}

theorem lapses_alike (reads : ReadsTimestamps) (h : ExpiresWhole vaid d t stamp) (now : Now) :
    d.isExpired now.datetime = vaid.isExpiredAt now.instant ∧
      t.isExpired now.millis = vaid.isExpiredAt now.instant := by
  have shared : Shares vaid.expiresAtAsPresented vaid d.dict t.members := ⟨rfl, h.dict, h.document⟩
  have undisputed : Undisputed vaid.expiresAtAsPresented stamp now :=
    ⟨fun _ => h.whole.inUtcYears, .inl h.whole.inPython, fun long => by
      rw [h.whole.whole] at long
      exact absurd long (Nat.not_lt_zero 9)⟩
  have agree : Agree (fun _ => False) vaid.expiresAtAsPresented vaid d.dict t.members now :=
    (agree_of_inPython reads shared now h.whole.parse h.whole.inPython).mpr undisputed
  obtain ⟨expired, rust, python, typescript, -⟩ := agree
  rw [rust]
  exact ⟨(d.of_isExpiredAt python).2, typescript⟩

variable {vaid' : Vaid} {d' : Python.Presented} {t' : TypeScript.Presented} {stamp' : Stamp}

theorem contained_alike (reads : ReadsTimestamps) (parent : ExpiresWhole vaid d t stamp)
    (child : ExpiresWhole vaid' d' t' stamp') :
    d.expiryWithin d' = expiryAttenuates vaid (some vaid'.expiresAtAsPresented) ∧
      t.expiryWithin t' = expiryAttenuates vaid (some vaid'.expiresAtAsPresented) := by
  obtain ⟨p, pMicros, pRead, -⟩ := python_reads reads parent.whole parent.dict
  obtain ⟨c, cMicros, cRead, -⟩ := python_reads reads child.whole child.dict
  have rust : expiryAttenuates vaid (some vaid'.expiresAtAsPresented) =
      decide (stamp'.seconds ≤ stamp.seconds) := by
    rw [expiryAttenuates, expiryAttenuatesWithin, chrono_reads reads parent.whole, Option.bind_some,
      chrono_reads reads child.whole]
    refine decide_eq_decide.mpr ((instant_le_iff _ _).trans ?_)
    simp only [Nat.le_refl, and_true]
    exact Int.le_iff_lt_or_eq.symm
  rw [rust]
  refine ⟨?_, ?_⟩
  · rw [Python.Presented.expiryWithin, pRead, cRead]
    refine decide_eq_decide.mpr ?_
    show c.val ≤ p.val ↔ _
    omega
  · rw [TypeScript.Presented.expiryWithin, typescript_reads reads parent.whole parent.document,
      typescript_reads reads child.whole child.document]
    refine decide_eq_decide.mpr ?_
    omega

end Documents

end VaidSuite.Expiry

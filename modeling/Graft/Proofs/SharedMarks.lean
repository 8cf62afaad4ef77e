/-
When two refreshes ask for the same mark.

What identifies a run are three texts in a row, the fingerprint of the ledger, the namespace and the output
directory, with a NUL between them. The last one may be anything and hold NULs of its own. But a digest is
written in letters and figures, and a namespace in the characters of identifiers and of marks. So the first
two NULs are the ones that were put there, and the three texts are found again.

The main statement is `Refresh.shared_text_iff`.
-/
import Graft.Proofs.NamespaceText
import Graft.Proofs.Separators
import Graft.Refresh

set_option autoImplicit false

namespace Graft

/-! ## 1. Texts without a NUL -/

theorem Ledger.nul_not_mem_fingerprint (ledger : Ledger) : '\x00' ∉ ledger.fingerprint.toList := by
  intro h
  exact absurd (Sha256.isAlphanum_of_mem_hexDigest h) (by decide)

theorem Namespace.nul_not_mem_text (space : Namespace) : '\x00' ∉ space.text.toList := by
  intro h
  rcases (Namespace.spelled_text space).characters.1 _ h with hcontinuation | hseparator
  · exact absurd hcontinuation (by decide)
  · exact absurd hseparator (by decide)

namespace Refresh

variable {refresh other : Refresh} {ledger ledger' : Ledger}

/-! ## 2. Marks -/

theorem toList_fingerprintText (refresh : Refresh) (ledger : Ledger) :
    (refresh.fingerprintText ledger).toList = ledger.fingerprint.toList ++
      '\x00' :: (refresh.space.text.toList ++ '\x00' :: refresh.output.text.toList) := by
  simp [fingerprintText]

/-- **Runs are identified by the same text only if they are for the same.** Whatever the output directories
are called: the texts are equal exactly if the fingerprints of the ledgers, the namespaces and the output
directories are. -/
theorem shared_text_iff :
    refresh.fingerprintText ledger = other.fingerprintText ledger' ↔
      ledger.fingerprint = ledger'.fingerprint ∧ refresh.space.segments = other.space.segments ∧
        refresh.output.text = other.output.text := by
  constructor
  · intro h
    rw [← String.toList_inj, toList_fingerprintText, toList_fingerprintText] at h
    obtain ⟨hledger, hrest⟩ := Text.append_inj_of_not_mem ledger.nul_not_mem_fingerprint
      ledger'.nul_not_mem_fingerprint h
    obtain ⟨hspace, houtput⟩ := Text.append_inj_of_not_mem refresh.space.nul_not_mem_text
      other.space.nul_not_mem_text hrest
    refine ⟨String.toList_inj.mp hledger, ?_, String.toList_inj.mp houtput⟩
    rw [Namespace.text_inj.mp (String.toList_inj.mp hspace)]
  · rintro ⟨hledger, hspace, houtput⟩
    unfold fingerprintText
    rw [hledger, Namespace.eq_of_segments_eq hspace, houtput]

end Refresh

end Graft

import ApiNotes.Proofs.Admission

/-!
# Calls that fail

A call that fails leaves a session with an index as it was, unless it was to index the whole project
again: then the session keeps its configuration and its answers, but loses the indexer for single
files (`Session.handle_error_iff`). That is no hidden difference, for a later call for a single
file tells the two sessions apart.
-/

namespace ApiNotes

namespace Session

variable {session : Session} {host : Host} {name : Text} {arguments : Arguments} {indexer : Indexer}
  {index : Index} {config : Config} {error : CallError}

/-- A call that is to index the whole project again. -/
def IsFullReindex (name : Text) (arguments : Arguments) : Prop :=
  Tool.ofName? name = some .reindex ∧ AsksForAll arguments

/-- What a session reports and answers to calls one after another. -/
def answers (session : Session) : List (Host × Text × Arguments) → List (List Notice × Text)
  | [] => []
  | (host, name, arguments) :: later =>
    (session.call host name arguments).2 :: answers (session.call host name arguments).1 later

theorem handle_error_of_not_isFullReindex (ready : session.ready? = some (indexer, index, config))
    (failed : (session.handle host name arguments).answer = .error error)
    (single : ¬IsFullReindex name arguments) :
    (session.handle host name arguments).session = session := by
  by_cases named : Tool.ofName? name = some .reindex
  · rw [handle_of_reindex session host arguments named] at failed ⊢
    obtain ⟨asks, -⟩ | ⟨-, ⟨unready, -⟩ | ⟨path, -, -, outcome⟩ | ⟨kind, outcome⟩⟩ :=
      reindex_cases session host arguments
    · exact absurd ⟨named, asks⟩ single
    · rw [unready] at ready
      cases ready
    · rw [outcome] at failed ⊢
      obtain ⟨-, done⟩ | ⟨-, ⟨_, -, done⟩ | ⟨next, -, done⟩⟩ := reindexFile_cases ready host path
      · rw [done]
      · rw [done]
      · rw [done] at failed
        cases failed
    · rw [outcome]
  · exact handle_of_ne_reindex session host arguments named

/-- A project that cannot be indexed again leaves an indexer without an index. -/
theorem handle_error_of_isFullReindex (ready : session.ready? = some (indexer, index, config))
    (failed : (session.handle host name arguments).answer = .error error)
    (full : IsFullReindex name arguments) :
    (session.handle host name arguments).session =
      { session with indexer := some (indexerFor host config) } := by
  obtain ⟨-, -, configured⟩ := ready?_eq_some_iff.mp ready
  have all : session.handle host name arguments = session.reindexAll host := by
    rw [handle_of_reindex session host arguments full.1]
    obtain ⟨-, outcome⟩ | ⟨single, -⟩ := reindex_cases session host arguments
    · exact outcome
    · exact absurd full.2 single
  have chosen : session.rebuild host none = session.rebuildWith host config := by
    simp [rebuild, configFor, configured]
  rw [all, reindexAll, chosen] at failed ⊢
  obtain ⟨_, -, outcome⟩ | ⟨built, made, -, -, outcome⟩ := rebuildWith_cases session host config
  · rw [outcome]
    obtain ⟨_, _, _⟩ := session
    simp_all
  · rw [outcome] at failed
    cases failed

theorem ready?_of_indexerFor (session : Session) (host : Host) (config : Config) :
    ({ session with indexer := some (indexerFor host config) } : Session).ready? = none := rfl

/-- A host without any file, to ask about one. -/
def bareHost : Host := ⟨.empty, [], []⟩

/-- Where an index is, a file that is not there is skipped or dropped. -/
theorem head_call_of_ready (ready : session.ready? = some (indexer, index, config)) :
    (session.call bareHost "reindex".toList (forFile "x")).2.2.head? = some 'S' ∨
      (session.call bareHost "reindex".toList (forFile "x")).2.2.head? = some 'F' := by
  have single : session.handle bareHost "reindex".toList (forFile "x") =
      session.reindexFile bareHost "x".toList :=
    (handle_of_reindex session bareHost _ (by decide)).trans
      (reindex_of_path session bareHost rfl (by decide))
  have gone : changeOf indexer bareHost.disk "x".toList = .dropped := by
    unfold changeOf
    rw [if_neg]
    intro leads
    obtain ⟨text, found⟩ := exists_text_of_leadsToFile leads
    cases found
  unfold call
  rw [single]
  obtain ⟨-, outcome⟩ | ⟨-, ⟨_, applied, -⟩ | ⟨next, -, outcome⟩⟩ :=
    reindexFile_cases ready bareHost "x".toList
  · rw [outcome]
    exact .inl rfl
  · rw [gone, applyChange, Indexer.drop, (ready?_eq_some_iff.mp ready).2.1] at applied
    cases applied
  · rw [outcome]
    exact .inr rfl

/-- Where no index is, the whole project is indexed instead of a file, or an error is reported. -/
theorem head_call_of_not_ready (unready : session.ready? = none) (host : Host) (path : String)
    (given : path.toList ≠ []) :
    (session.call host "reindex".toList (forFile path)).2.2.head? = some 'P' ∨
      (session.call host "reindex".toList (forFile path)).2.2.head? = some 'E' := by
  have whole : session.handle host "reindex".toList (forFile path) = session.reindexAll host := by
    rw [handle_of_reindex session host _ (by decide), reindex_of_path session host rfl given,
      reindexFile, unready]
  unfold call
  rw [whole, reindexAll]
  cases (session.rebuild host none).answer with
  | ok _ => exact .inl rfl
  | error error => exact .inr rfl

/-- A call that fails leaves a session with an index as it was, and all later answers, just if it
was not to index the whole project again. Otherwise only the indexer is replaced. -/
theorem handle_error_iff (session : Session) (host : Host) (name : Text) (arguments : Arguments)
    (indexer : Indexer) (index : Index) (config : Config) (error : CallError)
    (ready : session.ready? = some (indexer, index, config))
    (failed : (session.handle host name arguments).answer = .error error) :
    ((session.handle host name arguments).session = session ↔ ¬IsFullReindex name arguments) ∧
      ((∀ later, (session.handle host name arguments).session.answers later = session.answers later) ↔
        ¬IsFullReindex name arguments) ∧
      (IsFullReindex name arguments → (session.handle host name arguments).session =
        { session with indexer := some (indexerFor host config) }) := by
  have kept : ¬IsFullReindex name arguments → (session.handle host name arguments).session = session :=
    handle_error_of_not_isFullReindex ready failed
  have lost : IsFullReindex name arguments → (session.handle host name arguments).session =
      { session with indexer := some (indexerFor host config) } :=
    handle_error_of_isFullReindex ready failed
  have told : IsFullReindex name arguments →
      ¬∀ later, (session.handle host name arguments).session.answers later = session.answers later := by
    intro full same
    have once := same [(bareHost, "reindex".toList, forFile "x")]
    have unready := ready?_of_indexerFor session host config
    rw [← lost full] at unready
    simp only [answers, List.cons.injEq, and_true] at once
    have before := head_call_of_ready ready
    have after := head_call_of_not_ready unready bareHost "x" (by decide)
    rw [once] at after
    rcases before with before | before <;> rcases after with after | after <;>
      exact absurd (before.symm.trans after) (by decide)
  refine ⟨⟨fun same full => told full fun later => by rw [same], kept⟩,
    ⟨fun same full => told full same, fun single later => by rw [kept single]⟩, lost⟩

/-- A question without the file that it is about fails and changes nothing. -/
theorem handle_error_small : ∃ error,
    (smallSession.handle smallHost "get_godoc_blocks".toList []).answer = .error error ∧
      (smallSession.handle smallHost "get_godoc_blocks".toList []).session = smallSession ∧
      ∀ later, (smallSession.handle smallHost "get_godoc_blocks".toList []).session.answers later =
        smallSession.answers later := by
  have single : ¬IsFullReindex "get_godoc_blocks".toList [] := fun full => absurd full.1 (by decide)
  obtain ⟨same, told, -⟩ :=
    handle_error_iff smallSession smallHost "get_godoc_blocks".toList [] _ _ _ _ rfl rfl
  exact ⟨_, rfl, same.mpr single, told.mpr single⟩

/-- The small project with a second file, whose status code has too many digits. -/
def brokenDisk : Disk :=
  Tracked.smallDisk.write ["p".toList, "b.go".toList]
    (("// godoc\n// @Success ".toList ++ List.replicate 4301 '9' ++ " {object} T".toList).map
      fun c => UInt8.ofNat c.toNat)

def brokenHost : Host := ⟨brokenDisk, ["p".toList], []⟩

/-- The project cannot be indexed again, and after that attempt the file that was not touched cannot
either, while it could be before. -/
theorem handle_error_loses :
    smallSession.Reached ∧ smallSession.ready?.isSome = true ∧
      (∃ error, (smallSession.handle brokenHost "reindex".toList []).answer = .error error) ∧
      (smallSession.handle brokenHost "reindex".toList []).session ≠ smallSession ∧
      (smallSession.call brokenHost "reindex".toList (forFile "a.go")).2.2 =
        "File 'a.go' re-indexed.".toList ∧
      ((smallSession.handle brokenHost "reindex".toList []).session.call brokenHost "reindex".toList
        (forFile "a.go")).2.2 ≠ "File 'a.go' re-indexed.".toList := by
  have fails : (smallSession.handle brokenHost "reindex".toList []).answer.toOption.isNone = true := by
    decide +kernel
  have before : (smallSession.call brokenHost "reindex".toList (forFile "a.go")).2.2 =
      "File 'a.go' re-indexed.".toList := by decide +kernel
  obtain ⟨error, failed⟩ : ∃ error,
      (smallSession.handle brokenHost "reindex".toList []).answer = .error error := by
    cases answer : (smallSession.handle brokenHost "reindex".toList []).answer with
    | error error => exact ⟨error, rfl⟩
    | ok text =>
      rw [answer] at fails
      cases fails
  have full : IsFullReindex "reindex".toList [] := ⟨by decide, fun _ given => by cases given⟩
  have unready : (smallSession.handle brokenHost "reindex".toList []).session.ready? = none := by
    rw [handle_error_of_isFullReindex rfl failed full]
    exact ready?_of_indexerFor _ _ _
  have after := head_call_of_not_ready unready brokenHost "a.go" (by decide)
  refine ⟨reached_smallSession, rfl, ⟨error, failed⟩, fun same => ?_, before, fun same => ?_⟩
  · rw [same, before] at after
    exact absurd after (by decide)
  · rw [same] at after
    exact absurd after (by decide)

end Session

end ApiNotes

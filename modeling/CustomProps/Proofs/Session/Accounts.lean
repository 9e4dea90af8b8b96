import CustomProps.Proofs.Block.Pieces
import CustomProps.Proofs.Session.Reply
import Mathlib.Algebra.GroupWithZero.Nat

/-!
# The accounts of a memo

What a memo keeps and counts is told by the questions that it was asked, whatever happens to its
scope in between, and whatever transforms the blocks for it.  The questions since it last forgot its
results tell what it keeps: each key once, with the result for the first question about it.  All
questions tell what it has counted, and which blocks were transformed.

* `MemoLog` — the questions to a memo.
* `Memo.Accounts` — a memo keeps and counts what the questions tell.
* `Memo.Accounts.hit`, `Memo.Accounts.miss`, `Memo.Accounts.forget` — what an answer that is kept,
  an answer that is not, and forgetting do to the accounts.
* `Session.Spares` — a computation that leaves a memo alone.
* `MemoStep` — what is done with a memo, and around it.
* `Session.IsAccounted.advance` — the accounts stay right with every step.
* `Session.memo_accounts` — what they say about the counts, the size and the answers of a memo.
-/

set_option autoImplicit false

namespace CustomProps

/-! ## Questions -/

/-- A question to a memo about a block. -/
structure Question where
  /-- The content of the block, and the version that the scope had. -/
  key : MemoKey
  answer : Option Text
  /-- What the transformer gives when it is called at that moment. -/
  anew : Except FileError (Option Text)
  /-- The blocks that the transformer was called with to answer the question. -/
  runs : List Text

/-- The questions to a memo. -/
structure MemoLog where
  all : List Question
  /-- The questions since the memo last forgot its results. -/
  recent : List Question

namespace MemoLog

/-- Nothing was asked yet. -/
def empty : MemoLog := ⟨[], []⟩

/-- One more question. -/
def ask (log : MemoLog) (q : Question) : MemoLog := ⟨log.all ++ [q], log.recent ++ [q]⟩

/-- The memo forgets its results. -/
def forget (log : MemoLog) : MemoLog := ⟨log.all, []⟩

/-- The keys asked for since the memo last forgot. -/
def keys (log : MemoLog) : List MemoKey := log.recent.map (·.key)

/-- The first question about a key since the memo last forgot. -/
def first? (log : MemoLog) (key : MemoKey) : Option Question := log.recent.find? (·.key == key)

/-- The blocks that were transformed. -/
def runs (log : MemoLog) : List Text := log.all.flatMap (·.runs)

/-- The blocks that were transformed for a key since the memo last forgot. -/
def runsFor (log : MemoLog) (key : MemoKey) : List Text :=
  (log.recent.filter (·.key == key)).flatMap (·.runs)

variable {log : MemoLog} {q : Question} {key : MemoKey}

theorem keys_ask (log : MemoLog) (q : Question) : (log.ask q).keys = log.keys ++ [q.key] := by
  rw [keys, ask, List.map_append, keys]
  rfl

theorem first?_ask (log : MemoLog) (q : Question) (key : MemoKey) :
    (log.ask q).first? key = (log.first? key).or (if q.key = key then some q else none) := by
  rw [first?, ask, List.find?_append, first?, List.find?_singleton]
  simp

theorem runs_ask (log : MemoLog) (q : Question) : (log.ask q).runs = log.runs ++ q.runs := by
  rw [runs, ask, List.flatMap_append, List.flatMap_singleton, runs]

theorem runsFor_ask (log : MemoLog) (q : Question) (key : MemoKey) :
    (log.ask q).runsFor key = log.runsFor key ++ if q.key = key then q.runs else [] := by
  rw [runsFor, ask, List.filter_append, List.flatMap_append, runsFor]
  by_cases h : q.key = key <;> simp [h]

theorem first?_eq_none_iff : log.first? key = none ↔ key ∉ log.keys := by
  rw [first?, List.find?_eq_none, keys, List.mem_map]
  simp

/-- The first question about its key is behind questions about other keys only. -/
theorem first?_of_recent (before after : List Question) (h : log.recent = before ++ q :: after)
    (hne : ∀ p ∈ before, p.key ≠ q.key) : log.first? q.key = some q := by
  have hnone : before.find? (·.key == q.key) = none :=
    List.find?_eq_none.2 fun p hp => by simpa using hne p hp
  rw [first?, h, List.find?_append, hnone, Option.none_or, List.find?_cons_of_pos (by simp)]

end MemoLog

/-! ## Accounts -/

/-- The memo keeps and counts what the questions tell. -/
structure Memo.Accounts (memo : Memo) (log : MemoLog) : Prop where
  asked : memo.hits + memo.misses = log.all.length
  missed : memo.misses = log.runs.length
  keys : memo.entries.map Prod.fst = log.keys.eraseDups
  find?_eq : ∀ key, (memo.find? key).map .ok = (log.first? key).map (·.anew)
  answers : ∀ q ∈ log.recent, (log.first? q.key).map (·.anew) = some (.ok q.answer)
  once : ∀ key, log.runsFor key = if key ∈ log.keys then [key.content] else []

namespace Memo

variable {memo : Memo} {log : MemoLog} {q : Question}

theorem accounts_empty : Accounts .empty .empty where
  asked := rfl
  missed := rfl
  keys := rfl
  find?_eq _ := rfl
  answers _ h := absurd h List.not_mem_nil
  once _ := rfl

theorem Accounts.contains_iff (h : memo.Accounts log) (key : MemoKey) :
    memo.contains key = true ↔ key ∈ log.keys := by
  rw [Memo.contains, ← Option.isSome_map (f := (.ok : _ → Except FileError _)), h.find?_eq,
    Option.isSome_map, Option.isSome_iff_ne_none, ne_eq, MemoLog.first?_eq_none_iff,
    Decidable.not_not]

theorem Accounts.find?_eq_none_iff (h : memo.Accounts log) (key : MemoKey) :
    memo.find? key = none ↔ key ∉ log.keys := by
  rw [← h.contains_iff, Memo.contains, Bool.not_eq_true, Option.isSome_eq_false_iff,
    Option.isNone_iff_eq_none]

theorem eraseDups_concat (keys : List MemoKey) (key : MemoKey) :
    (keys ++ [key]).eraseDups =
      if key ∈ keys then keys.eraseDups else keys.eraseDups ++ [key] := by
  rw [List.eraseDups_append]
  split
  · rename_i h
    simp [List.removeAll, h]
  · rename_i h
    simp [List.removeAll, h, List.eraseDups_cons]

/-- The first question about a key stays the first one. -/
theorem Accounts.answers_ask (h : memo.Accounts log)
    (hanswer : ((log.ask q).first? q.key).map (·.anew) = some (.ok q.answer)) :
    ∀ q' ∈ (log.ask q).recent,
      ((log.ask q).first? q'.key).map (·.anew) = some (.ok q'.answer) := by
  intro q' hq'
  rcases List.mem_append.1 hq' with hq' | hq'
  · obtain ⟨first, hfirst, hanew⟩ := Option.map_eq_some_iff.1 (h.answers q' hq')
    rw [MemoLog.first?_ask, hfirst, Option.some_or, Option.map_some, hanew]
  · obtain rfl := List.mem_singleton.1 hq'
    exact hanswer

/-- Blocks are transformed once for each key, if not again for a key that was asked for before. -/
theorem Accounts.once_ask (h : memo.Accounts log)
    (hruns : q.runs = if q.key ∈ log.keys then [] else [q.key.content]) (key : MemoKey) :
    (log.ask q).runsFor key = if key ∈ (log.ask q).keys then [key.content] else [] := by
  rw [MemoLog.runsFor_ask, h.once, MemoLog.keys_ask, hruns]
  by_cases heq : q.key = key
  · subst heq
    by_cases hkey : q.key ∈ log.keys <;> simp [hkey]
  · simp [heq, Ne.symm heq]

/-- An answer that was kept is counted. -/
theorem Accounts.hit (h : memo.Accounts log) (hfind : memo.find? q.key = some q.answer)
    (hruns : q.runs = []) : memo.countHit.Accounts (log.ask q) := by
  have hfirst : (log.first? q.key).map (·.anew) = some (.ok q.answer) := by
    rw [← h.find?_eq, hfind, Option.map_some]
  have hkey : q.key ∈ log.keys := by
    rw [← h.contains_iff, Memo.contains, hfind]
    rfl
  have hsame : ∀ key, ((log.ask q).first? key).map (·.anew) =
      (log.first? key).map (·.anew) := by
    intro key
    obtain ⟨first, hq, -⟩ := Option.map_eq_some_iff.1 hfirst
    rw [MemoLog.first?_ask]
    split
    · rename_i heq
      rw [← heq, hq]
      rfl
    · rw [Option.or_none]
  refine ⟨?_, ?_, ?_, fun key => ?_, h.answers_ask ((hsame q.key).trans hfirst),
    h.once_ask (hruns.trans (if_pos hkey).symm)⟩
  · rw [MemoLog.ask, List.length_append, ← h.asked]
    exact Nat.add_right_comm _ 1 _
  · rw [MemoLog.runs_ask, hruns, List.append_nil]
    exact h.missed
  · rw [MemoLog.keys_ask, eraseDups_concat, if_pos hkey]
    exact h.keys
  · rw [hsame]
    exact h.find?_eq key

theorem store_of_find?_eq_none {key : MemoKey} (h : memo.find? key = none)
    (result : Option Text) :
    memo.store key result = { memo with entries := memo.entries ++ [(key, result)] } := by
  rw [store, if_neg]
  rw [contains, h]
  exact Bool.false_ne_true

theorem find?_store_of_find?_eq_none {key : MemoKey} (h : memo.find? key = none)
    (result : Option Text) : (memo.store key result).find? key = some result := by
  rw [store_of_find?_eq_none h, find?, List.lookup_append, ← find?, h, Option.none_or,
    List.lookup_cons, beq_self_eq_true]

/-- For a key without a result the block is transformed, and its result kept. -/
theorem Accounts.miss (h : memo.Accounts log) (hfind : memo.find? q.key = none)
    (hanswer : q.anew = .ok q.answer) (hruns : q.runs = [q.key.content]) :
    (memo.countMiss.store q.key q.answer).Accounts (log.ask q) := by
  have hkey : q.key ∉ log.keys := (h.find?_eq_none_iff q.key).1 hfind
  have hfirst : log.first? q.key = none := MemoLog.first?_eq_none_iff.2 hkey
  have hmissed : memo.countMiss.find? q.key = none := hfind
  rw [store_of_find?_eq_none hmissed]
  refine ⟨?_, ?_, ?_, fun key => ?_, h.answers_ask ?_,
    h.once_ask (hruns.trans (if_neg hkey).symm)⟩
  · rw [MemoLog.ask, List.length_append, ← h.asked]
    rfl
  · rw [MemoLog.runs_ask, List.length_append, hruns, ← h.missed]
    rfl
  · rw [MemoLog.keys_ask, eraseDups_concat, if_neg hkey, ← h.keys, List.map_append]
    rfl
  · have hkept := h.find?_eq key
    show ((memo.entries ++ [(q.key, q.answer)]).lookup key).map Except.ok = _
    rw [MemoLog.first?_ask, Option.map_or, ← hkept, find?, List.lookup_append, Option.map_or]
    by_cases heq : q.key = key
    · subst heq
      simp [hanswer]
    · simp [heq, List.lookup_cons, beq_eq_false_iff_ne.2 (Ne.symm heq)]
  · rw [MemoLog.first?_ask, hfirst, if_pos rfl, ← hanswer]
    rfl

/-- Forgetting empties the memo and leaves the counts alone. -/
theorem Accounts.forget (h : memo.Accounts log) : memo.clear.Accounts log.forget where
  asked := h.asked
  missed := h.missed
  keys := rfl
  find?_eq _ := rfl
  answers _ hq := absurd hq List.not_mem_nil
  once _ := rfl

end Memo

/-- Asks a memo about a block, or makes it forget. -/
def Step.Uses (j : Nat) : Step → Prop
  | .fetch i _ | .forget i => i = j
  | _ => False

namespace Session

variable {α β : Type} {s : Session} {j k : Nat} {slot : MemoSlot} {transformer : Transformer}

/-! ## Computations that leave a memo alone -/

/-- No plugin keeps its results in the memo. -/
def IsPrivate (s : Session) (j : Nat) : Prop := ∀ plugin ∈ s.plugins, plugin.memo ≠ some j

/-- The blocks that the transformer was called with for a memo. -/
def runsFor (s : Session) (j : Nat) : List Text := (s.runs.filter (·.1 == j)).map Prod.snd

/-- Nothing has happened to the memo, no plugin came or went, and no block was transformed for the
memo. -/
structure Spared (j : Nat) (s later : Session) : Prop where
  memos : later.memos[j]? = s.memos[j]?
  plugins : later.plugins = s.plugins
  runsFor : later.runsFor j = s.runsFor j

theorem IsPrivate.of_eq {later : Session} (h : s.IsPrivate j)
    (hplugins : later.plugins = s.plugins) : later.IsPrivate j := by
  rwa [IsPrivate, hplugins]

/-- Spares the memo, if no plugin has it. -/
def SparesTo (j : Nat) (s later : Session) : Prop := s.IsPrivate j → s.Spared j later

instance (j : Nat) : IsPreorder Session (SparesTo j) where
  refl _ _ := ⟨rfl, rfl, rfl⟩
  trans _ _ _ h h' hs := by
    obtain ⟨hmemo, hplugins, hruns⟩ := h hs
    obtain ⟨hmemo', hplugins', hruns'⟩ := h' (hs.of_eq hplugins)
    exact ⟨hmemo'.trans hmemo, hplugins'.trans hplugins, hruns'.trans hruns⟩

/-- A memo that no plugin has stays as it is. -/
abbrev Spares (j : Nat) (m : SessionM α) : Prop := Along (SparesTo j) m

theorem Spares.of_eq {m : SessionM α} (h : ∀ s : Session, (m s).2.memos = s.memos ∧
    (m s).2.plugins = s.plugins ∧ (m s).2.runs = s.runs) : Spares j m :=
  fun s _ => ⟨by rw [(h s).1], (h s).2.1, by rw [runsFor, (h s).2.2, runsFor]⟩

theorem spares_refresh (k : Nat) : Spares j (refresh k) := .of_eq fun s => by
  obtain ⟨journal, heq⟩ := refresh_eq k s
  rw [heq]
  exact ⟨rfl, rfl, rfl⟩

theorem spares_version (k : Nat) : Spares j (version k) :=
  (spares_refresh k).bindLook fun _ => .pureLook _

theorem spares_consult (k : Nat) (result : Lookup → α) (trace : Lookup → List Moment) :
    Spares j (consult k result trace) := .of_eq fun s => by
  rw [consult]
  dsimp only
  split <;> exact ⟨rfl, rfl, rfl⟩

theorem spares_note (events : List Event) : Spares j (note events) :=
  .of_eq fun _ => ⟨rfl, rfl, rfl⟩

theorem spares_memoSlot (i : Nat) : Spares j (memoSlot i) := .of_eq fun _ => ⟨rfl, rfl, rfl⟩

theorem spares_modifyMemo {i : Nat} (hi : i ≠ j) (change : Memo → Memo) :
    Spares j (modifyMemo i change) :=
  fun _ _ => ⟨List.getElem?_modify_ne _ _ hi, rfl, rfl⟩

/-- What is counted for one memo is not counted for another. -/
theorem spares_counting {i : Nat} (hi : i ≠ j)
    (h : ∀ k content, Spares j (transformer k content)) (k : Nat) (content : Text) :
    Spares j (counting i transformer k content) := by
  refine Along.bindLook (Along.lift (m := modify fun s : Session =>
    { s with runs := s.runs ++ [(i, content)] }) fun s _ => ⟨rfl, rfl, ?_⟩) fun _ => h k content
  show ((s.runs ++ [(i, content)]).filter (·.1 == j)).map Prod.snd = s.runsFor j
  rw [List.filter_append, List.filter_cons_of_neg (by simpa using hi), List.filter_nil,
    List.append_nil, runsFor]

theorem spares_fetch {i : Nat} (hi : i ≠ j) (h : ∀ k content, Spares j (transformer k content))
    (content : Text) : Spares j (fetch transformer i content) := by
  refine (spares_memoSlot i).lift.bindLook fun slot =>
    ((spares_version slot.scope).bindLook fun _ => .pureLook _).bindLook fun key => ?_
  split
  · exact (spares_modifyMemo hi _).lift.bindLook fun _ => .pureLook _
  · exact (spares_modifyMemo hi _).lift.bindLook fun _ => (spares_note _).lift.bindLook fun _ =>
      (h slot.scope _).bindLook fun result =>
        Along.lift ((spares_modifyMemo hi _).bind fun _ => (spares_memoSlot i).bind fun _ =>
          .pure _)

theorem spares_holds (i : Nat) (content : Text) : Spares j (holds i content) :=
  (spares_memoSlot i).lift.bindLook fun slot =>
    ((spares_version slot.scope).bindLook fun _ => .pureLook _).bindLook fun _ => .pureLook _

theorem spares_transform (k : Nat) (content : Text) : Spares j (transform k content) :=
  spares_consult k _ _

theorem spares_call (p : Nat) (phase : Int) (content : Text) (selectors : List Text) :
    Spares j (call p phase content selectors) := by
  intro s hs
  rw [call_eq]
  cases hplugin : s.plugins[p]? with
  | none => exact ⟨rfl, rfl, rfl⟩
  | some plugin =>
    have hmemo := hs plugin (List.mem_of_getElem? hplugin)
    dsimp only
    split
    · cases hi : plugin.memo with
      | none => exact spares_transform plugin.scope content s hs
      | some i =>
        exact spares_fetch (fun heq => hmemo (by rw [hi, heq])) spares_transform content s hs
    · exact ⟨rfl, rfl, rfl⟩

theorem spares_rewrite (p : Nat) (sheet : Text) (report : Report) :
    Spares j (rewrite p sheet report) := by
  rw [rewrite_eq]
  refine (Along.mapM _ fun rule _ => ?_).bindLook fun _ =>
    (spares_note _).lift.bindLook fun _ => .pureLook _
  exact (spares_call p _ _ _).bindLook fun _ => .pureLook _

theorem spares_modifyScope (k : Nat) (change : Scope → Scope) : Spares j (modifyScope k change) :=
  .of_eq fun _ => ⟨rfl, rfl, rfl⟩

theorem spares_modifyThenVersion (k : Nat) (change : Mapping → Mapping) :
    Spares j (modifyThenVersion k change) :=
  (spares_modifyScope k _).lift.bindLook fun _ => (spares_version k).bindLook fun _ => .pureLook _

theorem spares_rewriteKept (p : Nat) (sheet : Text) : Spares j (rewriteKept p sheet) := by
  intro s hs
  have hspared := spares_rewrite (j := j) p sheet s.report s hs
  rw [rewriteKept]
  split
  · rename_i heq
    rw [heq] at hspared
    exact ⟨hspared.memos, hspared.plugins, hspared.runsFor⟩
  · rename_i heq
    rw [heq] at hspared
    exact ⟨hspared.memos, hspared.plugins, hspared.runsFor⟩

theorem spares_act {step : Step} (h : ¬step.Uses j) : Spares j (act step) := by
  cases step with
  | lookup k name =>
    exact ((spares_refresh k).bindLook fun _ => .pureLook _).bindLook fun _ => .pureLook _
  | version k => exact (spares_version k).bindLook fun _ => .pureLook _
  | set k name value => exact spares_modifyThenVersion k _
  | remove k name => exact spares_modifyThenVersion k _
  | clear k => exact spares_modifyThenVersion k _
  | poke k name value => exact (spares_modifyScope k _).lift.bindLook fun _ => .pureLook _
  | unpoke k name => exact (spares_modifyScope k _).lift.bindLook fun _ => .pureLook _
  | write | delete | nativeCalls => exact .of_eq fun _ => ⟨rfl, rfl, rfl⟩
  | fetch i content =>
    refine (spares_fetch h (spares_counting h spares_transform) content).bindLook fun _ =>
      (spares_memoSlot i).lift.bindLook fun _ => ?_
    exact Along.get.lift.bindLook fun _ => .pureLook _
  | holds i content => exact (spares_holds i content).bindLook fun _ => .pureLook _
  | forget i =>
    exact (spares_modifyMemo h _).lift.bindLook fun _ => (spares_memoSlot i).lift.bindLook fun _ =>
      .pureLook _
  | transform k content => exact (spares_transform k content).bindLook fun _ => .pureLook _
  | call p phase content selectors =>
    exact (spares_call p phase content selectors).bindLook fun _ => .pureLook _
  | rewrite p sheet keepReport =>
    cases keepReport with
    | true => exact spares_rewriteKept p sheet
    | false => exact (spares_rewrite p sheet _).bindLook fun _ => .pureLook _

end Session

/-! ## Transforming for the memo -/

/-- Answers wherever the scope can be looked at, and leaves a memo alone. -/
structure Transformer.ServesMemo (transformer : Transformer) (j : Nat) : Prop where
  spares : ∀ k content, Session.Spares j (transformer k content)
  answers : ∀ k content (s : Session), s.refusal? k = none →
    ∃ result, (transformer k content s).1 = .ok result

namespace Session

variable {s : Session} {j k : Nat} {slot : MemoSlot} {transformer : Transformer}

theorem servesMemo_transform (j : Nat) : Transformer.ServesMemo transform j where
  spares := spares_transform
  answers k content s h := by
    rw [transform_fst, failure?_eq_none h]
    exact ⟨_, rfl⟩

theorem runsFor_counting (h : Transformer.ServesMemo transformer j) (k : Nat) (content : Text)
    (hs : s.IsPrivate j) :
    (counting j transformer k content s).2.memos[j]? = s.memos[j]? ∧
      (counting j transformer k content s).2.plugins = s.plugins ∧
      (counting j transformer k content s).2.runsFor j = s.runsFor j ++ [content] := by
  have hspared := h.spares k content { s with runs := s.runs ++ [(j, content)] } hs
  rw [counting_eq]
  refine ⟨hspared.memos, hspared.plugins, hspared.runsFor.trans ?_⟩
  show ((s.runs ++ [(j, content)]).filter (·.1 == j)).map Prod.snd = _
  rw [List.filter_append, List.map_append, runsFor, List.filter_singleton, beq_self_eq_true]
  rfl

/-- The session in which the transformer is called, if it is, for a memo that is asked about a
block. -/
def atCall (s : Session) (j : Nat) : Session :=
  afterMiss j (s.slotAt j).memo.size (refresh (s.slotAt j).scope s).2

/-- What the transformer gives when it is called for a memo that is asked about a block. -/
def anew (transformer : Transformer) (j : Nat) (content : Text) (s : Session) :
    Except FileError (Option Text) :=
  (counting j transformer (s.slotAt j).scope content (s.atCall j)).1

/-- Wherever the scope can be looked at, a block is transformed as the scope is then. -/
theorem anew_transform (h : s.refusal? (s.slotAt j).scope = none) (content : Text) :
    anew transform j content s =
      .ok (Block.transform content (s.answers (s.slotAt j).scope)) := by
  have hasked := looked_refresh (s.slotAt j).scope s
  have hcall : (s.atCall j).refusal? (s.slotAt j).scope = none := (hasked.refusal? _).trans h
  have hanswers : (s.atCall j).answers (s.slotAt j).scope = s.answers (s.slotAt j).scope :=
    hasked.answers _
  have hcounted := looked_runs (s.atCall j) ((s.atCall j).runs ++ [(j, content)])
  rw [anew, counting_eq, transform_fst, hcounted.failure?, failure?_eq_none hcall,
    hcounted.answers, hanswers, settle_none]

/-- A result that is kept is the answer, and no block is transformed. -/
theorem fetch_hit (transformer : Transformer) (hs : s.IsPrivate j)
    (hj : s.memos[j]? = some slot) (hrefusal : s.refusal? slot.scope = none) {content : Text}
    {result : Option Text}
    (hfind : slot.memo.find? ⟨content, (s.scopeNow slot.scope).version⟩ = some result) :
    let outcome := fetch (counting j transformer) j content s
    outcome.1 = .ok result ∧
      outcome.2.memos[j]? = some { slot with memo := slot.memo.countHit } ∧
      outcome.2.plugins = s.plugins ∧ outcome.2.runsFor j = s.runsFor j := by
  intro outcome
  have hasked := spares_refresh slot.scope s hs
  obtain rfl := slotAt_eq hj
  have heq : outcome = _ := fetch_of_find?_eq_some hrefusal hfind _
  rw [heq]
  refine ⟨rfl, ?_, hasked.plugins, hasked.runsFor⟩
  show ((refresh _ s).2.memos.modify j _)[j]? = _
  rw [List.getElem?_modify_eq, hasked.memos, hj]
  rfl

/-- Without a result the block is transformed, once, and the result kept. -/
theorem fetch_miss (htransformer : transformer.ServesMemo j) (hs : s.IsPrivate j)
    (hj : s.memos[j]? = some slot) (hrefusal : s.refusal? slot.scope = none) {content : Text}
    (hfind : slot.memo.find? ⟨content, (s.scopeNow slot.scope).version⟩ = none) :
    let outcome := fetch (counting j transformer) j content s
    ∃ result, anew transformer j content s = .ok result ∧ outcome.1 = .ok result ∧
      outcome.2.memos[j]? = some { slot with
        memo := slot.memo.countMiss.store ⟨content, (s.scopeNow slot.scope).version⟩ result } ∧
      outcome.2.plugins = s.plugins ∧ outcome.2.runsFor j = s.runsFor j ++ [content] := by
  obtain rfl := slotAt_eq hj
  have hasked := spares_refresh (s.slotAt j).scope s hs
  have hprivate : (s.atCall j).IsPrivate j := hs.of_eq hasked.plugins
  have hmemo : (s.atCall j).memos[j]? =
      some { s.slotAt j with memo := (s.slotAt j).memo.countMiss } := by
    show ((refresh _ s).2.memos.modify j _)[j]? = _
    rw [List.getElem?_modify_eq, hasked.memos, hj]
    rfl
  have hcall : (s.atCall j).refusal? (s.slotAt j).scope = none :=
    ((looked_refresh (s.slotAt j).scope s).refusal? _).trans hrefusal
  obtain ⟨result, hresult⟩ := htransformer.answers _ content
    { s.atCall j with runs := (s.atCall j).runs ++ [(j, content)] } hcall
  obtain ⟨hmemo', hplugins, hruns⟩ :=
    runsFor_counting htransformer (s.slotAt j).scope content hprivate
  rw [← counting_eq j transformer] at hresult
  obtain ⟨done, hdone⟩ : ∃ done,
      counting j transformer (s.slotAt j).scope content (s.atCall j) = (.ok result, done) :=
    ⟨_, Prod.ext hresult rfl⟩
  rw [hdone] at hmemo' hplugins hruns
  intro outcome
  have heq : outcome = _ := (fetch_of_find?_eq_none hrefusal hfind _).trans (fetchAnew_of_ok hdone)
  rw [heq]
  refine ⟨result, hresult, ?_⟩
  have hkept : ∀ key, (keepResult j key result done).2.memos[j]? = some { s.slotAt j with
      memo := (s.slotAt j).memo.countMiss.store key result } := by
    intro key
    show (done.memos.modify j _)[j]? = _
    rw [List.getElem?_modify_eq, hmemo', hmemo]
    rfl
  refine ⟨congrArg Except.ok ?_, hkept _, hplugins.trans hasked.plugins,
    hruns.trans (congrArg (· ++ [content]) hasked.runsFor)⟩
  show (((keepResult j _ result done).2.slotAt j).memo.find? _).getD result = result
  have hmissed : (s.slotAt j).memo.countMiss.find? _ = none := hfind
  rw [slotAt_eq (hkept _)]
  exact congrArg (·.getD result) (Memo.find?_store_of_find?_eq_none hmissed result)

end Session

/-! ## Runs -/

/-- What is done with a memo, and around it. -/
inductive MemoStep where
  /-- The memo is asked about a block. -/
  | get (content : Text)
  /-- The memo forgets its results. -/
  | forget
  /-- Anything else is done. -/
  | other (step : Step)

namespace MemoStep

/-- Does one step, with a transformer for the memo. -/
def act (transformer : Transformer) (j : Nat) (s : Session) : MemoStep → Session
  | get content => (Session.fetch (Session.counting j transformer) j content s).2
  | forget => (Session.modifyMemo j (·.clear) s).2
  | other step => (Session.perform step s).2

/-- Nothing else is done with the memo. -/
def IsApart (j : Nat) (step : MemoStep) : Prop := ∀ step', step = other step' → ¬step'.Uses j

/-- The question that a memo is asked about a block, if it is answered. -/
def question? (transformer : Transformer) (j : Nat) (content : Text) (s : Session) :
    Option Question :=
  match (Session.fetch (Session.counting j transformer) j content s).1 with
  | .error _ => none
  | .ok answer => some {
      key := ⟨content, (s.scopeNow (s.slotAt j).scope).version⟩
      answer
      anew := Session.anew transformer j content s
      runs := ((Session.fetch (Session.counting j transformer) j content s).2.runsFor j).drop
        (s.runsFor j).length }

/-- The questions to a memo after one more step.  A question that fails, because nobody can look at
the scope, is none. -/
def log (transformer : Transformer) (j : Nat) (s : Session) (log : MemoLog) : MemoStep → MemoLog
  | get content => (question? transformer j content s).elim log log.ask
  | forget => log.forget
  | other _ => log

/-- The session after a run. -/
def actAll (transformer : Transformer) (j : Nat) (steps : List MemoStep) (s : Session) : Session :=
  steps.foldl (act transformer j) s

/-- The questions to a memo after a run. -/
def logAll (transformer : Transformer) (j : Nat) : Session → MemoLog → List MemoStep → MemoLog
  | _, log, [] => log
  | s, before, step :: steps =>
    logAll transformer j (step.act transformer j s) (step.log transformer j s before) steps

end MemoStep

namespace Session

variable {s : Session} {j k : Nat} {slot : MemoSlot} {transformer : Transformer} {log : MemoLog}
  {before : List Text}

/-- The memo is over the scope, no plugin has it, its accounts are right, and blocks were
transformed for it as the questions tell. -/
structure IsAccounted (s : Session) (j k : Nat) (before : List Text) (log : MemoLog) : Prop where
  isPrivate : s.IsPrivate j
  accounts : ∃ slot, s.memos[j]? = some slot ∧ slot.scope = k ∧ slot.memo.Accounts log
  runsFor : s.runsFor j = before ++ log.runs

theorem isAccounted_addMemo (k : Nat) (h : s.IsPrivate s.memos.length) :
    (addMemo k s).2.IsAccounted (addMemo k s).1 k (s.runsFor (addMemo k s).1) .empty :=
  ⟨h, ⟨⟨k, .empty⟩, List.getElem?_concat_length, rfl, Memo.accounts_empty⟩,
    (List.append_nil _).symm⟩

/-- A question that fails leaves everything as it was. -/
theorem IsAccounted.get_of_refusal? (transformer : Transformer) (h : s.IsAccounted j k before log)
    {error : FileError} (hrefusal : s.refusal? k = some error) (content : Text) :
    MemoStep.question? transformer j content s = none ∧
      (MemoStep.act transformer j s (.get content)).IsAccounted j k before log := by
  obtain ⟨hprivate, ⟨slot, hj, rfl, haccounts⟩, hruns⟩ := h
  rw [← slotAt_eq hj] at hrefusal
  have hasked := spares_refresh (s.slotAt j).scope s hprivate
  rw [MemoStep.question?, MemoStep.act, fetch_of_refusal? hrefusal]
  exact ⟨rfl, hprivate.of_eq hasked.plugins, ⟨slot, hasked.memos.trans hj, rfl, haccounts⟩,
    hasked.runsFor.trans hruns⟩

theorem question?_of_ok {content : Text} {answer : Option Text}
    (h : (fetch (counting j transformer) j content s).1 = .ok answer) :
    MemoStep.question? transformer j content s =
      some ⟨⟨content, (s.scopeNow (s.slotAt j).scope).version⟩, answer,
        anew transformer j content s,
        ((fetch (counting j transformer) j content s).2.runsFor j).drop (s.runsFor j).length⟩ := by
  rw [MemoStep.question?, h]

/-- A question that is answered is accounted for. -/
theorem IsAccounted.get (htransformer : transformer.ServesMemo j) (h : s.IsAccounted j k before log)
    (hrefusal : s.refusal? k = none) (content : Text) :
    ∃ q, MemoStep.question? transformer j content s = some q ∧
      (MemoStep.act transformer j s (.get content)).IsAccounted j k before (log.ask q) := by
  obtain ⟨hprivate, ⟨slot, hj, rfl, haccounts⟩, hruns⟩ := h
  obtain rfl := slotAt_eq hj
  cases hfind : (s.slotAt j).memo.find? ⟨content, (s.scopeNow (s.slotAt j).scope).version⟩ with
  | some result =>
    obtain ⟨hanswer, hmemo, hplugins, hsame⟩ :=
      fetch_hit transformer hprivate hj hrefusal hfind
    refine ⟨_, question?_of_ok hanswer, hprivate.of_eq hplugins, ⟨_, hmemo, rfl, ?_⟩, ?_⟩
    · refine haccounts.hit hfind ?_
      rw [hsame, List.drop_length]
    · rw [MemoLog.runs_ask, hsame, List.drop_length, List.append_nil, ← hruns]
      exact hsame
  | none =>
    obtain ⟨result, hanew, hanswer, hmemo, hplugins, hmore⟩ :=
      fetch_miss htransformer hprivate hj hrefusal hfind
    refine ⟨_, question?_of_ok hanswer, hprivate.of_eq hplugins, ⟨_, hmemo, rfl, ?_⟩, ?_⟩
    · refine haccounts.miss (q := ⟨_, result, _, _⟩) hfind hanew ?_
      rw [hmore, List.drop_left]
    · rw [MemoLog.runs_ask, hmore, List.drop_left, ← List.append_assoc, ← hruns]
      exact hmore

theorem IsAccounted.forget (h : s.IsAccounted j k before log) :
    (MemoStep.act transformer j s .forget).IsAccounted j k before log.forget := by
  obtain ⟨hprivate, ⟨slot, hj, rfl, haccounts⟩, hruns⟩ := h
  refine ⟨hprivate, ⟨{ slot with memo := slot.memo.clear }, ?_, rfl, haccounts.forget⟩, hruns⟩
  show (s.memos.modify j _)[j]? = _
  rw [List.getElem?_modify_eq, hj]
  rfl

theorem IsAccounted.other (h : s.IsAccounted j k before log) {step : Step} (hstep : ¬step.Uses j) :
    (MemoStep.act transformer j s (.other step)).IsAccounted j k before log := by
  obtain ⟨slot, hj, hscope, haccounts⟩ := h.accounts
  have hspared := spares_act hstep s h.isPrivate
  rw [MemoStep.act, perform_snd]
  exact ⟨h.isPrivate.of_eq hspared.plugins, ⟨slot, hspared.memos.trans hj, hscope, haccounts⟩,
    hspared.runsFor.trans h.runsFor⟩

/-- The accounts stay right with every step. -/
theorem IsAccounted.act (htransformer : transformer.ServesMemo j)
    (h : s.IsAccounted j k before log) {step : MemoStep} (hstep : step.IsApart j) :
    (step.act transformer j s).IsAccounted j k before (step.log transformer j s log) := by
  cases step with
  | get content =>
    rw [MemoStep.log]
    cases hrefusal : s.refusal? k with
    | some error =>
      obtain ⟨hnone, hsame⟩ := h.get_of_refusal? transformer hrefusal content
      rwa [hnone]
    | none =>
      obtain ⟨q, hq, hasked⟩ := h.get htransformer hrefusal content
      rwa [hq]
  | forget => exact h.forget
  | other step => exact h.other (hstep step rfl)

/-- By induction on the steps: the accounts stay right. -/
theorem IsAccounted.actAll (htransformer : transformer.ServesMemo j) (steps : List MemoStep)
    (hsteps : ∀ step ∈ steps, step.IsApart j) (h : s.IsAccounted j k before log) :
    (MemoStep.actAll transformer j steps s).IsAccounted j k before
      (MemoStep.logAll transformer j s log steps) := by
  induction steps generalizing s log with
  | nil => exact h
  | cons step steps ih =>
    obtain ⟨hstep, hsteps⟩ := List.forall_mem_cons.1 hsteps
    exact ih hsteps (h.act htransformer hstep)

/-- **The accounts of a memo.**  Let a memo be made over a scope, with any transformer that answers
wherever the scope can be looked at, and anything happen afterwards in any order: questions to the
memo and to others, changes of the scope, also behind its back, and of the files.  Then

* a question is answered just when the scope can be looked at;
* its counts add up to the questions to it, and the misses are the runs of the transformer, each of
  which belongs to one of the questions;
* it keeps one result for each key asked for since it last forgot, and has the result for a block if
  and only if the block was asked for since then at the version that the scope has now;
* since it last forgot, the transformer was called once for each key asked for, with its block, with
  or without a result, and each question was answered with what the transformer gave at the first
  question about its key;
* forgetting leaves the counts as they are. -/
theorem memo_accounts (k : Nat) (hprivate : s.IsPrivate s.memos.length)
    (htransformer : transformer.ServesMemo s.memos.length) (steps : List MemoStep)
    (hsteps : ∀ step ∈ steps, step.IsApart s.memos.length) :
    let j := (addMemo k s).1
    let later := MemoStep.actAll transformer j steps (addMemo k s).2
    let log := MemoStep.logAll transformer j (addMemo k s).2 .empty steps
    let memo := (later.slotAt j).memo
    (∀ content, (MemoStep.question? transformer j content later).isSome = true ↔
      ∃ n, (version k later).1 = .ok n) ∧
    (memo.hits + memo.misses = log.all.length ∧ memo.misses = log.runs.length ∧
      later.runsFor j = s.runsFor j ++ log.runs) ∧
    (memo.size = log.keys.eraseDups.length ∧
      ∀ content, (holds j content later).1 = .ok true ↔
        ∃ n, (version k later).1 = .ok n ∧ ⟨content, n⟩ ∈ log.keys) ∧
    ((∀ key, log.runsFor key = if key ∈ log.keys then [key.content] else []) ∧
      ∀ q ∈ log.recent, (log.first? q.key).map (·.anew) = some (.ok q.answer)) ∧
    ((MemoStep.act transformer j later .forget).slotAt j).memo = ⟨[], memo.hits, memo.misses⟩ := by
  intro j later log memo
  have htransformer : transformer.ServesMemo j := htransformer
  have hrun : later.IsAccounted j k (s.runsFor j) log :=
    (isAccounted_addMemo k hprivate).actAll htransformer steps hsteps
  obtain ⟨slot, hj, hscope, haccounts⟩ := hrun.accounts
  obtain rfl : later.slotAt j = slot := slotAt_eq hj
  refine ⟨fun content => ?_, ⟨haccounts.asked, haccounts.missed, hrun.runsFor⟩,
    ⟨?_, fun content => ?_⟩, ⟨haccounts.once, haccounts.answers⟩, ?_⟩
  · rw [version_eq]
    cases hrefusal : later.refusal? k with
    | none =>
      obtain ⟨q, hq, -⟩ := hrun.get htransformer hrefusal content
      rw [hq]
      exact iff_of_true rfl ⟨_, rfl⟩
    | some error =>
      rw [(hrun.get_of_refusal? transformer hrefusal content).1]
      exact iff_of_false nofun nofun
  · rw [Memo.size, ← List.length_map (f := Prod.fst), haccounts.keys]
  · rw [holds_eq, hscope, version_eq, settle_eq_ok_iff, haccounts.contains_iff]
    simp only [settle_eq_ok_iff, and_assoc, exists_and_left, exists_eq_left']
  · have hforgot : (MemoStep.act transformer j later .forget).memos[j]? =
        some { later.slotAt j with memo := memo.clear } := by
      show (later.memos.modify j _)[j]? = _
      rw [List.getElem?_modify_eq, hj]
      rfl
    rw [slotAt_eq hforgot]
    rfl

/-- A session with a mapping that nobody has filled. -/
def withMapping : Session := (addScope (.mapping (.ofValues .empty)) (ofFiles (.emptyAt 0))).2

/-- A block is asked for, then again after its value has come behind the back of the mapping, and
again after the mapping was told another one. -/
def stepsBehindItsBack : List MemoStep := [.get "x:var(--b,c)".toList,
  .other (.poke 0 "--b".toList (.text "d".toList)), .get "x:var(--b,c)".toList,
  .other (.set 0 "--b".toList (.text "e".toList)), .get "x:var(--b,c)".toList]

/-- What is kept for the block is the answer until the version rises, although the scope answers
differently before that. -/
theorem memo_accounts_mapping :
    let block := "x:var(--b,c)".toList
    let later := MemoStep.actAll transform 0 stepsBehindItsBack (addMemo 0 withMapping).2
    let log := MemoStep.logAll transform 0 (addMemo 0 withMapping).2 .empty stepsBehindItsBack
    let memo := (later.slotAt 0).memo
    (withMapping.IsPrivate withMapping.memos.length ∧
      Transformer.ServesMemo transform withMapping.memos.length ∧
      ∀ step ∈ stepsBehindItsBack, step.IsApart withMapping.memos.length) ∧
    log.recent.map (·.key) = [⟨block, 0⟩, ⟨block, 0⟩, ⟨block, 1⟩] ∧
    log.recent.map (·.anew) = [.ok (some "x:c;x:var(--b,c);".toList),
      .ok (some "x:d;x:var(--b,c);".toList), .ok (some "x:e;x:var(--b,c);".toList)] ∧
    log.recent.map (·.answer) = [some "x:c;x:var(--b,c);".toList,
      some "x:c;x:var(--b,c);".toList, some "x:e;x:var(--b,c);".toList] ∧
    memo.hits = 1 ∧ memo.misses = 2 ∧ later.runsFor 0 = [block, block] ∧
    ((MemoStep.act transform 0 later .forget).slotAt 0).memo = ⟨[], 1, 2⟩ := by
  intro block later log memo
  have hprivate : withMapping.IsPrivate withMapping.memos.length := nofun
  have hserves : Transformer.ServesMemo transform withMapping.memos.length :=
    servesMemo_transform _
  have hsteps : ∀ step ∈ stepsBehindItsBack, step.IsApart withMapping.memos.length := by
    simp [stepsBehindItsBack, MemoStep.IsApart, Step.Uses]
  have hkeys : log.recent.map (·.key) = [⟨block, 0⟩, ⟨block, 0⟩, ⟨block, 1⟩] := by decide +kernel
  have hanew : log.recent.map (·.anew) = [anew transform 0 block (addMemo 0 withMapping).2,
      anew transform 0 block
        (MemoStep.actAll transform 0 (stepsBehindItsBack.take 2) (addMemo 0 withMapping).2),
      anew transform 0 block
        (MemoStep.actAll transform 0 (stepsBehindItsBack.take 4) (addMemo 0 withMapping).2)] := rfl
  rw [anew_transform (by decide +kernel), anew_transform (by decide +kernel),
    anew_transform (by decide +kernel), Block.transform_var, Block.transform_var,
    Block.transform_var] at hanew
  obtain ⟨-, ⟨hasked, hmissed, hruns⟩, -, ⟨-, hanswers⟩, hforgot⟩ :=
    memo_accounts 0 hprivate hserves stepsBehindItsBack hsteps
  have hmisses : memo.misses = 2 := hmissed.trans (by decide +kernel)
  have hhits : memo.hits = 1 := by
    have hsum : memo.hits + memo.misses = 3 := hasked.trans (by decide +kernel)
    omega
  have hwins : ∀ first q, log.first? q.key = some first → q ∈ log.recent →
      first.anew = .ok q.answer := by
    intro first q hfirst hq
    exact Option.some.inj ((congrArg (Option.map _) hfirst).symm.trans (hanswers q hq))
  have hanswer : log.recent.map (·.answer) = [some "x:c;x:var(--b,c);".toList,
      some "x:c;x:var(--b,c);".toList, some "x:e;x:var(--b,c);".toList] := by
    obtain ⟨q₁, q₂, q₃, hrecent⟩ :=
      List.length_eq_three.1 (show log.recent.length = 3 by decide +kernel)
    rw [hrecent] at hkeys hanew ⊢
    obtain ⟨hkey₁, hkey₂, hkey₃⟩ : q₁.key = ⟨block, 0⟩ ∧ q₂.key = ⟨block, 0⟩ ∧
        q₃.key = ⟨block, 1⟩ := by simpa using hkeys
    have hfirst : log.first? q₁.key = some q₁ :=
      MemoLog.first?_of_recent [] [q₂, q₃] hrecent (List.forall_mem_nil _)
    have hfirst' : log.first? q₃.key = some q₃ :=
      MemoLog.first?_of_recent [q₁, q₂] [] hrecent (by simp [hkey₁, hkey₂, hkey₃])
    have hanswer₁ := hwins q₁ q₁ hfirst (by simp [hrecent])
    have hanswer₂ := hwins q₁ q₂ (hkey₂.trans hkey₁.symm ▸ hfirst) (by simp [hrecent])
    have hanswer₃ := hwins q₃ q₃ hfirst' (by simp [hrecent])
    have hsame : q₂.answer = q₁.answer := Except.ok.inj (hanswer₂.symm.trans hanswer₁)
    simp only [List.map_cons, List.map_nil, hanswer₁, hanswer₃, List.cons.injEq,
      Except.ok.injEq, and_true, hsame] at hanew ⊢
    exact ⟨hanew.1, hanew.1, hanew.2.2⟩
  refine ⟨⟨hprivate, hserves, hsteps⟩, hkeys, hanew, hanswer, hhits, hmisses,
    hruns.trans (by decide +kernel), hforgot.trans ?_⟩
  show (⟨[], memo.hits, memo.misses⟩ : Memo) = _
  rw [hhits, hmisses]

end Session
end CustomProps

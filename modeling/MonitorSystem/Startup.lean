import MonitorSystem.Conf
import MonitorSystem.Serving
import MonitorSystem.ThreadPool

/-! # The parameters the server starts with

They come from the options and, where one is missing, from the configuration
file. The workers and the task queue are made with them as they are.
-/

namespace MonitorSystem.Startup

open Lib.CString Lib.CBuffer Msg Conf DbPool ThreadPool Serving

inductive Opt
  | p (optarg : Bytes)
  | t (optarg : Bytes)
  | T (optarg : Bytes)
  | other

/-- token is none once a strcpy has written behind its end. -/
structure Params where
  port : Int
  thread_num : Int
  token : Option (Buffer tokenLen)
  task_queue_size : Int

def Params.setToken (p : Params) (s : Bytes) : Params :=
  { p with token := p.token.bind fun token => token.strcpy s }

def option (p : Params) : Opt → Params
  | .p optarg => { p with port := atoi optarg }
  | .t optarg => p.setToken (cstr optarg)
  | .T optarg => { p with thread_num := atoi optarg }
  | .other => p

/-- The result of get_conf_value where it can be used: it is NULL when the file
cannot be opened, and there is none after an access outside conf_buf. -/
def lookup (file : Option Bytes) (key : String) : Option Bytes :=
  file.bind fun content => (getConfValue content (lit key)).map Buffer.text

def orConf (file : Option Bytes) (key : String) (p : Params) (missing : Bool) (set : Bytes → Params) : Option Params :=
  if missing = true then (lookup file key).map set else some p

/-- main up to the signals; none where the process ends. -/
def startup (opts : List Opt) (file : Option Bytes) : Option Params := do
  let p := opts.foldl option ⟨0, 0, some (zeroed tokenLen), 0⟩
  let p ← orConf file "PORT" p (p.port = 0) fun value => { p with port := atoi value }
  let p ← orConf file "TRHEAD_NUM" p (p.thread_num = 0) fun value => { p with thread_num := atoi value }
  let p ← orConf file "TOKEN" p (p.token.map Buffer.text = some []) p.setToken
  orConf file "TASK_QUEUE_SIZE" p (p.task_queue_size = 0) fun value => { p with task_queue_size := atoi value }

/-- The token fits, the queue takes a message if malloc gives it memory, and no worker has to do
without a connection. -/
structure Usable (p : Params) : Prop where
  token : p.token ≠ none
  size : 2 ≤ p.task_queue_size
  queue : ∀ memory msg, ∃ tq, push (taskQueueInit p.task_queue_size.toNat memory) msg = some (1, tq)
  served : ∀ memory connect sp, (sqlPoolCreate memory 10 connect).1 = some sp → Served sp p.thread_num.toNat

def Opt.tokens : Opt → Option Bytes
  | .t optarg => some (cstr optarg)
  | .p _ | .T _ | .other => none

def Opt.threads : Opt → Option Bytes
  | .T optarg => some optarg
  | .p _ | .t _ | .other => none

/-- The last option counts, and the file where it is missing or 0. -/
def threadNum (opts : List Opt) (content : Bytes) : Int :=
  let given := ((opts.filterMap Opt.threads).getLast?.map atoi).getD 0
  if given = 0 then atoi (lastValue content (lit "TRHEAD_NUM")) else given

/-- Every token fits with its terminator, also that of the file if it is looked
up; the file gives the size of the queue; there is a connection for every worker. -/
structure Suited (opts : List Opt) (content : Bytes) : Prop where
  given : ∀ token ∈ opts.filterMap Opt.tokens, token.length < tokenLen
  token : (opts.filterMap Opt.tokens).getLast?.getD [] = [] → (lastValue content (lit "TOKEN")).length < tokenLen
  size : 2 ≤ atoi (lastValue content (lit "TASK_QUEUE_SIZE"))
  threads : threadNum opts content ≤ 10

section options

theorem options_thread_num (opts : List Opt) :
    (opts.foldl option ⟨0, 0, some (zeroed tokenLen), 0⟩).thread_num =
      ((opts.filterMap Opt.threads).getLast?.map atoi).getD 0 := by
  induction opts using List.reverseRecOn with
  | nil => rfl
  | append_singleton opts o ih =>
    rw [List.foldl_append, List.filterMap_append, List.foldl_cons, List.foldl_nil]
    cases o with
    | T optarg =>
      have hOne : [Opt.T optarg].filterMap Opt.threads = [optarg] := rfl
      rw [hOne, List.getLast?_concat]
      rfl
    | p optarg | t optarg | other =>
      rw [← List.append_nil (opts.filterMap Opt.threads)] at ih
      exact ih

theorem options_task_queue_size (opts : List Opt) (p : Params) :
    (opts.foldl option p).task_queue_size = p.task_queue_size := by
  induction opts generalizing p with
  | nil => rfl
  | cons o opts ih =>
    rw [List.foldl_cons, ih]
    cases o <;> rfl

theorem options_token (opts : List Opt) :
    ((∀ token ∈ opts.filterMap Opt.tokens, token.length < tokenLen) →
        ∃ token, (opts.foldl option ⟨0, 0, some (zeroed tokenLen), 0⟩).token = some token ∧
          token.text = (opts.filterMap Opt.tokens).getLast?.getD []) ∧
      (¬ (∀ token ∈ opts.filterMap Opt.tokens, token.length < tokenLen) →
        (opts.foldl option ⟨0, 0, some (zeroed tokenLen), 0⟩).token = none) := by
  induction opts using List.reverseRecOn with
  | nil => exact ⟨fun _ => ⟨zeroed tokenLen, rfl, text_zeroed (by decide)⟩, fun h => absurd (by simp) h⟩
  | append_singleton opts o ih =>
    obtain ⟨hFit, hOver⟩ := ih
    rw [List.foldl_append, List.filterMap_append, List.foldl_cons, List.foldl_nil]
    cases o with
    | t optarg =>
      have hOne : [Opt.t optarg].filterMap Opt.tokens = [cstr optarg] := rfl
      rw [hOne, List.forall_mem_append, List.forall_mem_singleton, List.getLast?_concat, option, Params.setToken]
      constructor
      · rintro ⟨hBefore, hShort⟩
        obtain ⟨token, hToken, _⟩ := hFit hBefore
        rw [hToken]
        cases hCopy : token.strcpy (cstr optarg) with
        | none => exact absurd (Buffer.strcpy_eq_none.mp hCopy) (Nat.not_le.mpr hShort)
        | some copy => exact ⟨copy, hCopy, Buffer.text_strcpy (noNul_cstr optarg) hCopy⟩
      · intro hNot
        by_cases hBefore : ∀ token ∈ opts.filterMap Opt.tokens, token.length < tokenLen
        · obtain ⟨token, hToken, _⟩ := hFit hBefore
          rw [hToken]
          exact Buffer.strcpy_eq_none.mpr (Nat.not_lt.mp fun hShort => hNot ⟨hBefore, hShort⟩)
        · rw [hOver hBefore]
          rfl
    | p optarg | T optarg | other =>
      have hNone (o : Opt) (h : o.tokens = none) : [o].filterMap Opt.tokens = [] := List.filterMap_cons_none h
      rw [hNone _ rfl, List.append_nil]
      exact ⟨hFit, hOver⟩

end options

theorem lookup_eq {file : Option Bytes} {key : String} {value : Bytes} (h : lookup file key = some value) :
    value = lastValue (file.getD []) (lit key) := by
  obtain ⟨content, hFile, hValue⟩ := Option.bind_eq_some_iff.mp h
  obtain ⟨conf_buf, hReturn, hText⟩ := Option.map_eq_some_iff.mp hValue
  rw [hFile, ← hText]
  exact text_getConfValue hReturn

theorem orConf_cases {file : Option Bytes} {key : String} {p p' : Params} {missing : Bool} {set : Bytes → Params}
    (h : orConf file key p missing set = some p') :
    (missing = true ∧ p' = set (lastValue (file.getD []) (lit key))) ∨ (missing = false ∧ p' = p) := by
  rw [orConf] at h
  split at h
  · rename_i hMissing
    obtain ⟨value, hLookup, rfl⟩ := Option.map_eq_some_iff.mp h
    exact .inl ⟨hMissing, congrArg set (lookup_eq hLookup)⟩
  · rename_i hGiven
    exact .inr ⟨eq_false_of_ne_true hGiven, (Option.some.inj h).symm⟩

theorem startup_token {opts : List Opt} {p p' : Params} {file : Option Bytes}
    (hToken : p.token = (opts.foldl option ⟨0, 0, some (zeroed tokenLen), 0⟩).token)
    (h : orConf file "TOKEN" p (p.token.map Buffer.text = some []) p.setToken = some p') :
    p'.token ≠ none ↔ (∀ token ∈ opts.filterMap Opt.tokens, token.length < tokenLen) ∧
      ((opts.filterMap Opt.tokens).getLast?.getD [] = [] →
        (lastValue (file.getD []) (lit "TOKEN")).length < tokenLen) := by
  obtain ⟨hFit, hOver⟩ := options_token opts
  by_cases hGiven : ∀ token ∈ opts.filterMap Opt.tokens, token.length < tokenLen
  · obtain ⟨token, hSome, hText⟩ := hFit hGiven
    rw [and_iff_right hGiven, ← hText]
    obtain ⟨hEmpty, rfl⟩ | ⟨hSet, rfl⟩ := orConf_cases h
    · have hEmpty : token.text = [] := by simpa [hToken.trans hSome] using hEmpty
      have hCopy : (p.setToken (lastValue (file.getD []) (lit "TOKEN"))).token =
          token.strcpy (lastValue (file.getD []) (lit "TOKEN")) := by
        rw [Params.setToken, hToken.trans hSome]
        rfl
      rw [hCopy, Ne, Buffer.strcpy_eq_none, Nat.not_le]
      exact ⟨fun hShort _ => hShort, fun hShort => hShort hEmpty⟩
    · have hSet : token.text ≠ [] := by simpa [hToken.trans hSome] using hSet
      rw [hToken.trans hSome]
      exact iff_of_true (Option.some_ne_none token) (fun hEmpty => absurd hEmpty hSet)
  · have hNone : p.token = none := hToken.trans (hOver hGiven)
    obtain ⟨hEmpty, _⟩ | ⟨_, rfl⟩ := orConf_cases h
    · simp [hNone] at hEmpty
    · rw [hNone]
      exact iff_of_false (not_not.mpr rfl) (fun hBoth => hGiven hBoth.1)

theorem startup_eq {opts : List Opt} {file : Option Bytes} {p : Params} (h : startup opts file = some p) :
    p.thread_num = threadNum opts (file.getD []) ∧
      p.task_queue_size = atoi (lastValue (file.getD []) (lit "TASK_QUEUE_SIZE")) ∧
      (p.token ≠ none ↔ (∀ token ∈ opts.filterMap Opt.tokens, token.length < tokenLen) ∧
        ((opts.filterMap Opt.tokens).getLast?.getD [] = [] →
          (lastValue (file.getD []) (lit "TOKEN")).length < tokenLen)) := by
  have hSize := options_task_queue_size opts ⟨0, 0, some (zeroed tokenLen), 0⟩
  have hGiven := options_thread_num opts
  unfold startup at h
  obtain ⟨withPort, hPort, h⟩ := Option.bind_eq_some_iff.mp h
  obtain ⟨withThreads, hThreads, h⟩ := Option.bind_eq_some_iff.mp h
  obtain ⟨withToken, hToken, hQueue⟩ := Option.bind_eq_some_iff.mp h
  -- each of the four lines sets its own parameter only
  have hPortKeeps : withPort.thread_num = (opts.foldl option ⟨0, 0, some (zeroed tokenLen), 0⟩).thread_num ∧
      withPort.token = (opts.foldl option ⟨0, 0, some (zeroed tokenLen), 0⟩).token ∧ withPort.task_queue_size = 0 := by
    obtain ⟨_, rfl⟩ | ⟨_, rfl⟩ := orConf_cases hPort
    · exact ⟨rfl, rfl, hSize⟩
    · exact ⟨rfl, rfl, hSize⟩
  obtain ⟨hNumber, hPortToken, hPortSize⟩ := hPortKeeps
  have hThreadsKeeps : withThreads.thread_num = threadNum opts (file.getD []) ∧ withThreads.token = withPort.token ∧
      withThreads.task_queue_size = 0 := by
    rw [threadNum, ← hGiven, ← hNumber]
    obtain ⟨hMissing, rfl⟩ | ⟨hSet, rfl⟩ := orConf_cases hThreads
    · rw [if_pos (of_decide_eq_true hMissing)]
      exact ⟨rfl, rfl, hPortSize⟩
    · rw [if_neg (of_decide_eq_false hSet)]
      exact ⟨rfl, rfl, hPortSize⟩
  obtain ⟨hThreadNum, hThreadsToken, hThreadsSize⟩ := hThreadsKeeps
  have hFinal := startup_token (hThreadsToken.trans hPortToken) hToken
  have hTokenKeeps : withToken.thread_num = withThreads.thread_num ∧ withToken.task_queue_size = 0 := by
    obtain ⟨_, rfl⟩ | ⟨_, rfl⟩ := orConf_cases hToken
    · exact ⟨rfl, hThreadsSize⟩
    · exact ⟨rfl, hThreadsSize⟩
  obtain ⟨hTokenThreads, hTokenSize⟩ := hTokenKeeps
  obtain ⟨_, rfl⟩ | ⟨hSet, _⟩ := orConf_cases hQueue
  · exact ⟨hTokenThreads.trans hThreadNum, rfl, hFinal⟩
  · exact absurd hTokenSize (of_decide_eq_false hSet)

theorem fresh_push {size : Int} (hSize : 2 ≤ size) (memory : Nat → MonitorMsgDs) (msg : MonitorMsgDs) :
    ∃ tq, push (taskQueueInit size.toNat memory) msg = some (1, tq) := by
  have hFresh : Tracks (taskQueueInit size.toNat memory) [] 0 := tracks_init (by omega) memory
  obtain ⟨tq, hPush, _⟩ := hFresh.push_free (show 0 + 1 < 0 + size.toNat by omega) msg
  exact ⟨tq, hPush⟩

theorem created_ready {memory : Option (Nat → SqlNode)} {connect : Nat → Connect} {sp : SqlConnPool}
    (h : (sqlPoolCreate memory 10 connect).1 = some sp) : Ready sp ∧ sp.pool_number = 10 := by
  obtain ⟨hLive, hNumber, _, _, hFresh⟩ := sqlPoolCreate_some h
  have hTen : corrected 10 = 10 := by decide
  rw [hTen] at hNumber
  exact ⟨⟨hLive, by omega, hFresh⟩, hNumber⟩

theorem served_ten {thread_num : Nat} : (∀ memory connect sp, (sqlPoolCreate memory 10 connect).1 = some sp →
    Served sp thread_num) ↔ thread_num ≤ 10 := by
  constructor
  · intro hAll
    have hCreate : (sqlPoolCreate (some fun _ => blank) 10 opened).1.isSome = true := by decide
    obtain ⟨sp, hSome⟩ := Option.isSome_iff_exists.mp hCreate
    obtain ⟨hReady, hTen⟩ := created_ready hSome
    rw [← hTen]
    exact (served_iff hReady).mp (hAll _ _ sp hSome)
  · intro hFew memory connect sp hSome
    obtain ⟨hReady, hTen⟩ := created_ready hSome
    exact (served_iff hReady).mpr (hTen ▸ hFew)

/-- The parameters in force are usable exactly when the options and the file suit the server. -/
theorem usable_iff {opts : List Opt} {file : Option Bytes} {p : Params} (h : startup opts file = some p) :
    Usable p ↔ Suited opts (file.getD []) := by
  obtain ⟨hThreads, hSize, hToken⟩ := startup_eq h
  constructor
  · rintro ⟨hFits, hTwo, _, hServed⟩
    obtain ⟨hGiven, hLooked⟩ := hToken.mp hFits
    have hFew := served_ten.mp hServed
    exact ⟨hGiven, hLooked, hSize ▸ hTwo, by omega⟩
  · rintro ⟨hGiven, hLooked, hTwo, hFew⟩
    rw [← hSize] at hTwo
    exact ⟨hToken.mpr ⟨hGiven, hLooked⟩, hTwo, fresh_push hTwo, served_ten.mpr (by omega)⟩

instance (opts : List Opt) (content : Bytes) : Decidable (Suited opts content) :=
  decidable_of_iff ((∀ token ∈ opts.filterMap Opt.tokens, token.length < tokenLen) ∧
      ((opts.filterMap Opt.tokens).getLast?.getD [] = [] → (lastValue content (lit "TOKEN")).length < tokenLen) ∧
      2 ≤ atoi (lastValue content (lit "TASK_QUEUE_SIZE")) ∧ threadNum opts content ≤ 10)
    ⟨fun ⟨hGiven, hToken, hSize, hThreads⟩ => ⟨hGiven, hToken, hSize, hThreads⟩,
      fun ⟨hGiven, hToken, hSize, hThreads⟩ => ⟨hGiven, hToken, hSize, hThreads⟩⟩

/-- The file does not mention the size of the queue, and push divides by 0. -/
theorem queue_size_missing : ¬ ∀ opts file p, startup opts file = some p → Usable p := by
  intro hAll
  have hSome : (startup [.p (lit "7777"), .t (lit "6789"), .T (lit "4")] (some [])).isSome = true := by decide +kernel
  obtain ⟨p, hp⟩ := Option.isSome_iff_exists.mp hSome
  obtain ⟨_, hTwo, _, _⟩ := hAll _ _ p hp
  have hSize : (startup [.p (lit "7777"), .t (lit "6789"), .T (lit "4")] (some [])).map Params.task_queue_size =
      some 0 := by decide +kernel
  rw [hp] at hSize
  rw [Option.some.inj hSize] at hTwo
  exact absurd hTwo (by decide)

def monitorConf : Bytes :=
  lit "PORT=7777\nUDPPORT=7778\nTOKEN=6789\nMAX=10000\nTRHEAD_NUM=10\nTASK_QUEUE_SIZE=500\n"

theorem usable_monitorConf : ∃ p, startup [] (some monitorConf) = some p ∧ Usable p := by
  have hSome : (startup [] (some monitorConf)).isSome = true := by decide +kernel
  obtain ⟨p, hp⟩ := Option.isSome_iff_exists.mp hSome
  exact ⟨p, hp, (usable_iff hp).mpr (by decide +kernel)⟩

end MonitorSystem.Startup

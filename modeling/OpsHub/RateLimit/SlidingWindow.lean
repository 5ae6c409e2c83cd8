import Mathlib.Data.Int.Notation
import Mathlib.Data.Nat.Basic
import OpsHub.Lib.Runs
import OpsHub.Lib.TtlCache
import OpsHub.Lib.Windows
import OpsHub.Requests.Types

/-!
# The sliding window of the rate limiter

`SLIDING_WINDOW_LUA` on the sorted sets of Redis.

* `slidingWindow`: the script, statement by statement;
* `Limiter.reply`: the answer of a limiter that remembers the time of every admission;
* `Tracks`: the sorted set holds the admissions of the window;
* `slidingWindow_tracks`: one evaluation answers as the limiter does;
* `slidingWindow_spec`: whatever has been evaluated before, an evaluation is admitted exactly if
  the window has room, and what follows from that.
-/

namespace OpsHub

/-! ### Sorted sets -/

/-- A sorted set of Redis: its members and their scores. -/
abbrev ZSet := Table (Prod.fst : String × ℕ → String)

namespace ZSet

/-- `ZREMRANGEBYSCORE` from `-inf`. -/
def zremrangebyscore (z : ZSet) (max : ℤ) : ZSet := z.deleteWhere (fun x => decide ((x.2 : ℤ) ≤ max))

/-- `ZCARD`. -/
def zcard (z : ZSet) : ℕ := z.rows.length

/-- `ZADD`: a member that is there already gets the new score. -/
def zadd (z : ZSet) (score : ℕ) (member : String) : ZSet :=
  match z.insert (member, score) with
  | some z' => z'
  | none => z.update member (fun x => (x.1, score)) (fun _ => rfl)

/-- The scores. -/
def scores (z : ZSet) : List ℕ := z.rows.map Prod.snd

/-- The score that `ZRANGE key 0 0 WITHSCORES` answers. -/
def lowest (z : ZSet) : Option ℕ := z.scores.min?

theorem scores_zremrangebyscore (z : ZSet) (max : ℤ) :
    (z.zremrangebyscore max).scores = z.scores.filter (fun a : ℕ => !decide ((a : ℤ) ≤ max)) := by
  unfold scores zremrangebyscore Table.deleteWhere
  rw [List.filter_map]
  rfl

/-- A new member is the last one. -/
theorem rows_zadd {z : ZSet} {score : ℕ} {member : String} (h : ∀ x ∈ z.rows, x.1 ≠ member) :
    (z.zadd score member).rows = z.rows ++ [(member, score)] := by
  obtain ⟨z', hz'⟩ := Table.exists_insert (r := (member, score)) (Table.find_eq_none_iff.2 h)
  rw [zadd, hz']
  exact (Table.insert_eq_some_iff.1 hz').2

end ZSet

/-! ### The script -/

/-- An evaluation of the script: the arguments that differ from one to the next. -/
structure Evaluation where
  now : ℕ
  jitter : String
  deriving DecidableEq, Repr

/-- The member that the script adds. -/
def Evaluation.member (e : Evaluation) : String := toString e.now ++ ":" ++ e.jitter

/-- What the script returns. -/
structure RateLimitReply where
  allowed : Bool
  remaining : ℕ
  retryAfter : ℕ
  deriving DecidableEq, Repr

/-- Milliseconds in seconds, rounded up. -/
def ceilSeconds (ms : ℕ) : ℕ := (ms + 999) / 1000

/-- The sorted sets by their keys, each with its time to live. -/
abbrev RateLimitStore := TtlCache String ZSet

/-- The sorted set under a key; there is none when its time is over. -/
def RateLimitStore.live (store : RateLimitStore) (now : ℕ) (key : String) : ZSet :=
  (store.get now key).getD (Table.empty _)

/-- `SLIDING_WINDOW_LUA`: the store after it and its reply, `none` where the script fails for want
of an oldest member. -/
def slidingWindow (window limit : ℕ) (key : String) (store : RateLimitStore) (e : Evaluation) :
    RateLimitStore × Option RateLimitReply :=
  let windowStart : ℤ := (e.now : ℤ) - window
  let z := (store.live e.now key).zremrangebyscore windowStart
  let count := z.zcard
  if count < limit then
    (store.set key (z.zadd e.now e.member) (e.now + window),
      some { allowed := true, remaining := limit - count - 1, retryAfter := 0 })
  else
    -- the time to live stays as it is
    (store.set key z (store.deadline key),
      z.lowest.map fun oldest =>
        { allowed := false, remaining := 0, retryAfter := ceilSeconds (oldest + window - e.now) })

/-- Whether an evaluation is admitted. -/
def Admitted (reply : Option RateLimitReply) : Prop := ∃ r ∈ reply, r.allowed = true

instance (reply : Option RateLimitReply) : Decidable (Admitted reply) :=
  match reply with
  | none => isFalse fun h => (nomatch h)
  | some r => decidable_of_iff (r.allowed = true)
      ⟨fun h => ⟨r, rfl, h⟩, fun ⟨_, hr, h⟩ => Option.some.inj hr ▸ h⟩

/-- The store after a sequence of evaluations of a key. -/
def evaluateAll (window limit : ℕ) (key : String) (store : RateLimitStore) (es : List Evaluation) :
    RateLimitStore :=
  Runs.run (fun s e => (slidingWindow window limit key s e).1) store es

/-- The replies to a sequence of evaluations. -/
def replies (window limit : ℕ) (key : String) (store : RateLimitStore) :
    List Evaluation → List (Option RateLimitReply)
  | [] => []
  | e :: es =>
    (slidingWindow window limit key store e).2 ::
      replies window limit key (slidingWindow window limit key store e).1 es

/-- The times of the admitted ones. -/
def admissions (window limit : ℕ) (key : String) (store : RateLimitStore) :
    List Evaluation → List ℕ
  | [] => []
  | e :: es =>
    (if Admitted (slidingWindow window limit key store e).2 then [e.now] else []) ++
      admissions window limit key (slidingWindow window limit key store e).1 es

/-! ### The limiter that remembers every admission -/

namespace Limiter

/-- The reply to an evaluation at `now`. -/
def reply (window limit : ℕ) (log : List ℕ) (now : ℕ) : Option RateLimitReply :=
  let recent := Windows.recent window now log
  if recent.length < limit then
    some { allowed := true, remaining := limit - recent.length - 1, retryAfter := 0 }
  else
    recent.min?.map fun oldest =>
      { allowed := false, remaining := 0, retryAfter := ceilSeconds (oldest + window - now) }

/-- The log after it. -/
def next (window limit : ℕ) (log : List ℕ) (now : ℕ) : List ℕ :=
  if Windows.count window now log < limit then log ++ [now] else log

variable {window limit : ℕ} {log : List ℕ} {now : ℕ}

theorem admitted_reply_iff :
    Admitted (reply window limit log now) ↔ Windows.count window now log < limit := by
  unfold Admitted reply Windows.count
  dsimp only
  split
  · rename_i hroom
    exact ⟨fun _ => hroom, fun _ => ⟨_, rfl, rfl⟩⟩
  · rename_i hfull
    refine ⟨fun ⟨r, hr, hallowed⟩ => ?_, fun hroom => absurd hroom hfull⟩
    obtain ⟨oldest, -, rfl⟩ := Option.map_eq_some_iff.1 hr
    cases hallowed

theorem next_eq : next window limit log now =
    log ++ if Admitted (reply window limit log now) then [now] else [] := by
  unfold next
  by_cases hroom : Windows.count window now log < limit
  · rw [if_pos hroom, if_pos (admitted_reply_iff.2 hroom)]
  · rw [if_neg hroom, if_neg (mt admitted_reply_iff.1 hroom), List.append_nil]

end Limiter

/-! ### The script answers as the limiter does -/

/-- The sorted set under a key holds the entries of a log that are in the window; its members are
among those given, and the log ends by `last`. -/
structure Tracks (window : ℕ) (key : String) (store : RateLimitStore) (log : List ℕ)
    (members : List String) (last : ℕ) : Prop where
  scores : ∀ now, last ≤ now →
    ((store.live now key).zremrangebyscore ((now : ℤ) - window)).scores =
      Windows.recent window now log
  members : ∀ now, ∀ x ∈ (store.live now key).rows, x.1 ∈ members
  last : ∀ a ∈ log, a ≤ last

section Script

variable {window limit : ℕ} {key : String} {store : RateLimitStore} {log : List ℕ}
  {members : List String} {last : ℕ} {e : Evaluation} {es fs : List Evaluation}

theorem RateLimitStore.live_set (store : RateLimitStore) (key : String) (z : ZSet)
    (deadline now : ℕ) :
    RateLimitStore.live (store.set key z deadline) now key =
      if now < deadline then z else Table.empty _ := by
  simp only [RateLimitStore.live, TtlCache.get, TtlCache.set, if_true]
  split <;> rfl

/-- The cut of the script is the window. -/
theorem filter_eq_recent {l : List ℕ} {now : ℕ} (hl : ∀ a ∈ l, a ≤ now) :
    l.filter (fun a : ℕ => !decide ((a : ℤ) ≤ (now : ℤ) - window)) = Windows.recent window now l := by
  refine List.filter_congr fun a ha => ?_
  have hle := hl a ha
  by_cases hin : now < a + window
  · have hcut : ¬ (a : ℤ) ≤ (now : ℤ) - window := by omega
    simp [Windows.Within, hle, hin, hcut]
  · have hcut : (a : ℤ) ≤ (now : ℤ) - window := by omega
    simp [Windows.Within, hin, hcut]

/-- Under a key that is not there, the empty log is tracked. -/
theorem tracks_nil (h : store.entries key = none) : Tracks window key store [] [] last := by
  have hlive : ∀ now, store.live now key = Table.empty _ := by
    intro now
    simp [RateLimitStore.live, TtlCache.get, h]
  refine ⟨fun now _ => ?_, fun now x hx => ?_, fun _ ha => absurd ha List.not_mem_nil⟩
  · rw [hlive]
    rfl
  · rw [hlive] at hx
    exact absurd hx List.not_mem_nil

theorem Tracks.mono (h : Tracks window key store log members last) {members' : List String}
    {last' : ℕ} (hmembers : members ⊆ members') (hlast : last ≤ last') :
    Tracks window key store log members' last' :=
  ⟨fun now hnow => h.scores now (Nat.le_trans hlast hnow),
    fun now x hx => hmembers (h.members now x hx), fun a ha => Nat.le_trans (h.last a ha) hlast⟩

/-- The sorted set that the script cuts down. -/
theorem Tracks.le_of_mem (h : Tracks window key store log members last) (hlast : last ≤ e.now) :
    ∀ a ∈ ((store.live e.now key).zremrangebyscore ((e.now : ℤ) - window)).scores, a ≤ e.now := by
  intro a ha
  rw [h.scores e.now hlast] at ha
  exact (Windows.mem_recent.1 ha).2.1

/-- What the store holds under a key from now on. -/
theorem tracks_set {z : ZSet} {deadline : ℕ} {log' : List ℕ} {members' : List String}
    (hlog : ∀ a ∈ log', a ≤ e.now) (hmembers : ∀ y ∈ z.rows, y.1 ∈ members')
    (hz : ∀ a ∈ z.scores, a ≤ e.now)
    (hlive : ∀ now, e.now ≤ now → now < deadline →
      Windows.recent window now z.scores = Windows.recent window now log')
    (hdead : ∀ now, e.now ≤ now → deadline ≤ now → Windows.recent window now log' = []) :
    Tracks window key (store.set key z deadline) log' members' e.now := by
  refine ⟨fun now hnow => ?_, fun now x hx => ?_, hlog⟩
  · rw [RateLimitStore.live_set]
    by_cases hlt : now < deadline
    · rw [if_pos hlt, ZSet.scores_zremrangebyscore,
        filter_eq_recent fun a ha => Nat.le_trans (hz a ha) hnow]
      exact hlive now hnow hlt
    · rw [if_neg hlt, hdead now hnow (Nat.le_of_not_lt hlt)]
      rfl
  · rw [RateLimitStore.live_set] at hx
    split at hx
    · exact hmembers x hx
    · exact absurd hx List.not_mem_nil

/-- **The step lemma.** -/
theorem slidingWindow_tracks (limit : ℕ) (h : Tracks window key store log members last)
    (hlast : last ≤ e.now) (hnew : e.member ∉ members) :
    (slidingWindow window limit key store e).2 = Limiter.reply window limit log e.now ∧
      Tracks window key (slidingWindow window limit key store e).1
        (Limiter.next window limit log e.now) (e.member :: members) e.now := by
  obtain ⟨z, hz⟩ : ∃ z, z = (store.live e.now key).zremrangebyscore ((e.now : ℤ) - window) :=
    ⟨_, rfl⟩
  have hscores : z.scores = Windows.recent window e.now log := hz ▸ h.scores e.now hlast
  have hmax : ∀ a ∈ z.scores, a ≤ e.now := hz ▸ h.le_of_mem hlast
  have hold : ∀ x ∈ z.rows, x.1 ∈ members := by
    intro x hx
    rw [hz] at hx
    exact h.members e.now x (Table.mem_deleteWhere.1 hx).1
  have hlog : ∀ a ∈ log, a ≤ e.now := fun a ha => Nat.le_trans (h.last a ha) hlast
  have hcard : z.zcard = (Windows.recent window e.now log).length := by
    rw [← hscores, ZSet.scores, List.length_map, ZSet.zcard]
  unfold slidingWindow Limiter.reply Limiter.next Windows.count
  dsimp only
  rw [← hz, hcard]
  by_cases hroom : (Windows.recent window e.now log).length < limit
  · rw [if_pos hroom, if_pos hroom, if_pos hroom]
    have hrows : (z.zadd e.now e.member).rows = z.rows ++ [(e.member, e.now)] :=
      ZSet.rows_zadd fun x hx heq => hnew (heq ▸ hold x hx)
    have hadd : (z.zadd e.now e.member).scores = Windows.recent window e.now log ++ [e.now] := by
      rw [ZSet.scores, hrows, List.map_append, ← hscores]
      rfl
    refine ⟨rfl, tracks_set ?_ ?_ ?_ ?_ ?_⟩
    · intro a ha
      rcases List.mem_append.1 ha with ha | ha
      · exact hlog a ha
      · exact Nat.le_of_eq (List.mem_singleton.1 ha)
    · intro x hx
      rw [hrows] at hx
      rcases List.mem_append.1 hx with hx | hx
      · exact List.mem_cons_of_mem _ (hold x hx)
      · rw [List.mem_singleton.1 hx]
        exact List.mem_cons_self
    · intro a ha
      rw [hadd] at ha
      rcases List.mem_append.1 ha with ha | ha
      · exact (Windows.mem_recent.1 ha).2.1
      · exact Nat.le_of_eq (List.mem_singleton.1 ha)
    · intro now hnow _
      rw [hadd, Windows.recent_append, Windows.recent_append, Windows.recent_recent hnow hlog]
    · -- when the key expires, every admission has left the window
      intro now _ hdead
      refine Windows.recent_eq_nil fun a ha hin => ?_
      have hle : a ≤ e.now := by
        rcases List.mem_append.1 ha with ha | ha
        · exact hlog a ha
        · exact Nat.le_of_eq (List.mem_singleton.1 ha)
      have hin : now < a + window := hin.2
      omega
  · rw [if_neg hroom, if_neg hroom, if_neg hroom]
    refine ⟨by rw [ZSet.lowest, hscores], tracks_set hlog ?_ hmax ?_ ?_⟩
    · exact fun x hx => List.mem_cons_of_mem _ (hold x hx)
    · intro now hnow _
      rw [hscores, Windows.recent_recent hnow hlog]
    · -- the key keeps its time to live, and was tracked up to that time
      intro now hnow hdead
      have hempty := h.scores now (Nat.le_trans hlast hnow)
      rw [RateLimitStore.live, TtlCache.get_eq_none_iff.2 hdead] at hempty
      exact hempty.symm

/-! ### Sequences of evaluations -/

/-- The evaluations of a key: the clock does not go back, and no two members are equal. -/
structure Ordered (es : List Evaluation) : Prop where
  now : (es.map Evaluation.now).Pairwise (· ≤ ·)
  member : (es.map Evaluation.member).Nodup

instance (es : List Evaluation) : Decidable (Ordered es) :=
  decidable_of_iff ((es.map Evaluation.now).Pairwise (· ≤ ·) ∧ (es.map Evaluation.member).Nodup)
    ⟨fun h => ⟨h.1, h.2⟩, fun h => ⟨h.now, h.member⟩⟩

theorem ordered_append : Ordered (es ++ fs) ↔ Ordered es ∧ Ordered fs ∧
    (∀ e ∈ es, ∀ f ∈ fs, e.now ≤ f.now) ∧ ∀ e ∈ es, ∀ f ∈ fs, e.member ≠ f.member := by
  have hnow : ((es ++ fs).map Evaluation.now).Pairwise (· ≤ ·) ↔
      (es.map Evaluation.now).Pairwise (· ≤ ·) ∧ (fs.map Evaluation.now).Pairwise (· ≤ ·) ∧
        ∀ e ∈ es, ∀ f ∈ fs, e.now ≤ f.now := by
    rw [List.map_append, List.pairwise_append]
    simp only [List.forall_mem_map]
  have hmember : ((es ++ fs).map Evaluation.member).Nodup ↔
      (es.map Evaluation.member).Nodup ∧ (fs.map Evaluation.member).Nodup ∧
        ∀ e ∈ es, ∀ f ∈ fs, e.member ≠ f.member := by
    rw [List.map_append, List.nodup_append]
    simp only [List.forall_mem_map]
  constructor
  · rintro ⟨hnows, hmembers⟩
    obtain ⟨hes, hfs, hle⟩ := hnow.1 hnows
    obtain ⟨hes', hfs', hne⟩ := hmember.1 hmembers
    exact ⟨⟨hes, hes'⟩, ⟨hfs, hfs'⟩, hle, hne⟩
  · rintro ⟨hes, hfs, hle, hne⟩
    exact ⟨hnow.2 ⟨hes.now, hfs.now, hle⟩, hmember.2 ⟨hes.member, hfs.member, hne⟩⟩

/-- The log of the limiter after the evaluations. -/
def Limiter.after (window limit : ℕ) (log : List ℕ) (es : List Evaluation) : List ℕ :=
  Runs.run (fun log e => Limiter.next window limit log e.now) log es

/-- The replies of the limiter. -/
def Limiter.replies (window limit : ℕ) (log : List ℕ) :
    List Evaluation → List (Option RateLimitReply)
  | [] => []
  | e :: es =>
    Limiter.reply window limit log e.now ::
      Limiter.replies window limit (Limiter.next window limit log e.now) es

/-- **The run lemma.**  From a store that tracks a log, the script replies as the limiter, and
its admissions are what the limiter has added to the log. -/
theorem run_tracks (h : Tracks window key store log members last)
    (hlast : ∀ e ∈ es, last ≤ e.now) (hnew : ∀ e ∈ es, e.member ∉ members) (hes : Ordered es) :
    replies window limit key store es = Limiter.replies window limit log es ∧
      log ++ admissions window limit key store es = Limiter.after window limit log es ∧
      ∀ t, last ≤ t → (∀ e ∈ es, e.now ≤ t) →
        Tracks window key (evaluateAll window limit key store es)
          (Limiter.after window limit log es) (es.map Evaluation.member ++ members) t := by
  induction es generalizing store log members last with
  | nil => exact ⟨rfl, List.append_nil log, fun t ht _ => h.mono (List.Subset.refl _) ht⟩
  | cons e es ih =>
    obtain ⟨hreply, hnext⟩ := slidingWindow_tracks limit h (hlast e List.mem_cons_self)
      (hnew e List.mem_cons_self)
    obtain ⟨hnow, hnows⟩ := List.pairwise_cons.1 hes.now
    obtain ⟨hmember, hmembers⟩ := List.nodup_cons.1 hes.member
    obtain ⟨hreplies, hafter, hend⟩ := ih hnext
      (fun e' he' => hnow e'.now (List.mem_map_of_mem he'))
      (fun e' he' hin => by
        rcases List.mem_cons.1 hin with heq | hin
        · exact hmember (heq ▸ List.mem_map_of_mem he')
        · exact hnew e' (List.mem_cons_of_mem e he') hin)
      ⟨hnows, hmembers⟩
    refine ⟨?_, ?_, fun t _ hes => ?_⟩
    · rw [replies, Limiter.replies, hreply, hreplies]
    · rw [admissions, hreply, ← List.append_assoc, ← Limiter.next_eq]
      exact hafter
    · refine (hend t (hes e List.mem_cons_self) fun e' he' =>
        hes e' (List.mem_cons_of_mem e he')).mono (fun m hm => ?_) (Nat.le_refl t)
      simp only [List.mem_append, List.mem_cons, List.map_cons] at hm ⊢
      tauto

/-- The log of the limiter is bounded. -/
theorem Limiter.bounded_after (hlog : Windows.Bounded window limit log)
    (hlast : ∀ a ∈ log, ∀ e ∈ es, a ≤ e.now) (hes : (es.map Evaluation.now).Pairwise (· ≤ ·)) :
    Windows.Bounded window limit (Limiter.after window limit log es) := by
  induction es generalizing log with
  | nil => exact hlog
  | cons e es ih =>
    obtain ⟨hnow, hnows⟩ := List.pairwise_cons.1 hes
    have hlate : ∀ e' ∈ es, e.now ≤ e'.now := fun e' he' => hnow e'.now (List.mem_map_of_mem he')
    refine ih ?_ (fun a ha e' he' => ?_) hnows
    · dsimp only [Limiter.next]
      split
      · rename_i hroom
        exact hlog.snoc (fun a ha => hlast a ha e List.mem_cons_self) hroom
      · exact hlog
    · dsimp only [Limiter.next] at ha
      split at ha
      · rcases List.mem_append.1 ha with ha | ha
        · exact hlast a ha e' (List.mem_cons_of_mem e he')
        · exact List.mem_singleton.1 ha ▸ hlate e' he'
      · exact hlast a ha e' (List.mem_cons_of_mem e he')

/-- **The wait.**  When the oldest admission of a full window has left it there is room. -/
theorem Limiter.room_after_wait {now now' : ℕ} {r : RateLimitReply}
    (hlog : Windows.Bounded window limit log) (hle : ∀ a ∈ log, a ≤ now)
    (hreply : Limiter.reply window limit log now = some r) (hdenied : r.allowed = false)
    (hwait : now' = now + 1000 * r.retryAfter) :
    Windows.count window now' log < limit := by
  unfold Limiter.reply at hreply
  dsimp only at hreply
  split at hreply
  · obtain rfl := Option.some.inj hreply
    cases hdenied
  · obtain ⟨oldest, holdest, rfl⟩ := Option.map_eq_some_iff.1 hreply
    have hmem : oldest ∈ Windows.recent window now log := List.min?_mem holdest
    have hin : now < oldest + window := (Windows.mem_recent.1 hmem).2.2
    have hlater : oldest + window ≤ now' := by
      dsimp only [ceilSeconds] at hwait
      omega
    have hlt : Windows.count window now' log < Windows.count window now log :=
      Windows.count_lt_of_left (by omega) hle hmem fun hwithin => Nat.not_lt.2 hlater hwithin.2
    exact Nat.lt_of_lt_of_le hlt (hlog.count_le now)

/-- There is always a reply when at least one evaluation is admitted. -/
theorem Limiter.exists_reply (window : ℕ) (hlimit : 1 ≤ limit) (log : List ℕ) (now : ℕ) :
    ∃ r, Limiter.reply window limit log now = some r := by
  unfold Limiter.reply
  dsimp only
  split
  · exact ⟨_, rfl⟩
  · rename_i hfull
    have hne : Windows.recent window now log ≠ [] := fun hnil => by
      rw [hnil] at hfull
      exact hfull hlimit
    obtain ⟨oldest, holdest⟩ := Option.isSome_iff_exists.1 (List.isSome_min?_of_ne_nil hne)
    exact ⟨_, by rw [holdest]; rfl⟩

/-- On admission the reply counts the places that are left. -/
theorem Limiter.remaining_reply {now : ℕ} {r : RateLimitReply} (hwindow : 0 < window)
    (hreply : Limiter.reply window limit log now = some r) (hallowed : r.allowed = true) :
    r.remaining + Windows.count window now (Limiter.next window limit log now) = limit := by
  unfold Limiter.reply at hreply
  dsimp only at hreply
  split at hreply
  · rename_i hroom
    obtain rfl := Option.some.inj hreply
    have hself : Windows.Within window now now := ⟨Nat.le_refl now, Nat.lt_add_of_pos_right hwindow⟩
    have hcount : Windows.count window now log < limit := hroom
    rw [Limiter.next, if_pos hcount, Windows.count_snoc, if_pos hself, Windows.count]
    dsimp only
    omega
  · obtain ⟨oldest, -, rfl⟩ := Option.map_eq_some_iff.1 hreply
    cases hallowed

/-- Under a key that was not there, the admissions are the log of the limiter. -/
theorem admissions_eq (hfresh : store.entries key = none) (hes : Ordered es) :
    admissions window limit key store es = Limiter.after window limit [] es :=
  (run_tracks (tracks_nil hfresh) (fun e _ => Nat.zero_le e.now) (fun _ _ => List.not_mem_nil)
    hes).2.1

/-- The limiter admits while there is room. -/
theorem Limiter.allowed_iff {now : ℕ} {r : RateLimitReply}
    (hreply : Limiter.reply window limit log now = some r) :
    r.allowed = true ↔ Windows.count window now log < limit := by
  rw [← Limiter.admitted_reply_iff, hreply]
  exact ⟨fun h => ⟨r, rfl, h⟩, fun ⟨r', hr', h⟩ => Option.some.inj hr' ▸ h⟩

/-- A denied evaluation is not remembered. -/
theorem Limiter.next_of_denied {now : ℕ} {r : RateLimitReply}
    (hreply : Limiter.reply window limit log now = some r) (hdenied : r.allowed = false) :
    Limiter.next window limit log now = log := by
  have hfull : ¬ Windows.count window now log < limit := by
    rw [← Limiter.allowed_iff hreply, hdenied]
    exact Bool.false_ne_true
  exact if_neg hfull

/-- From an empty log no window ever has more than `limit` admissions. -/
theorem Limiter.bounded (hes : Ordered es) :
    Windows.Bounded window limit (Limiter.after window limit [] es) :=
  Limiter.bounded_after .nil (fun _ ha => absurd ha List.not_mem_nil) hes.now

/-- Under a key that was not there, the entries track the log of the limiter. -/
theorem tracks_fresh (hfresh : store.entries key = none) (hes : Ordered es) {t : ℕ}
    (ht : ∀ e ∈ es, e.now ≤ t) :
    Tracks window key (evaluateAll window limit key store es) (Limiter.after window limit [] es)
      (es.map Evaluation.member) t := by
  have htracks : Tracks window key (evaluateAll window limit key store es)
      (Limiter.after window limit [] es) (es.map Evaluation.member ++ []) t :=
    (run_tracks (tracks_nil hfresh) (fun e _ => Nat.zero_le e.now) (fun _ _ => List.not_mem_nil)
      hes).2.2 t (Nat.zero_le t) ht
  rwa [List.append_nil] at htracks

/-- **The sliding window.**  After any evaluations `es` of a key that was not there before them,
the evaluation `e` is replied to; it is admitted exactly if fewer than `limit` of the admissions
are in the window; no window ever has more than `limit` of them; a denied evaluation leaves all
later replies as they would be without it; an admitted one is told how many places are left; and
after the time that a denied one is told there is room. -/
theorem slidingWindow_spec (hwindow : 0 < window) (hlimit : 1 ≤ limit)
    (hfresh : store.entries key = none) (es : List Evaluation) (e : Evaluation)
    (fs : List Evaluation) (hordered : Ordered (es ++ e :: fs)) :
    let before := evaluateAll window limit key store es
    let after := (slidingWindow window limit key before e).1
    ∃ r, (slidingWindow window limit key before e).2 = some r ∧
      (r.allowed = true ↔
        Windows.count window e.now (admissions window limit key store es) < limit) ∧
      (∀ t, Windows.count window t (admissions window limit key store (es ++ e :: fs)) ≤ limit) ∧
      (r.allowed = false →
        replies window limit key after fs = replies window limit key before fs) ∧
      (r.allowed = true → r.remaining +
        Windows.count window e.now (admissions window limit key store (es ++ [e])) = limit) ∧
      (r.allowed = false → ∀ e' : Evaluation, e'.now = e.now + 1000 * r.retryAfter →
        e'.member ∉ (es ++ [e]).map Evaluation.member →
        Admitted (slidingWindow window limit key after e').2) := by
  dsimp only
  have hsplit : Ordered ((es ++ [e]) ++ fs) := by
    rw [List.append_assoc]
    exact hordered
  obtain ⟨hsnoc, hfs, hlater, hother⟩ := ordered_append.1 hsplit
  obtain ⟨hes, -, hearlier, hnew⟩ := ordered_append.1 hsnoc
  have hefs : e ∈ es ++ [e] := List.mem_append.2 (Or.inr List.mem_cons_self)
  have hmember : e.member ∉ es.map Evaluation.member := by
    intro hin
    obtain ⟨e', he', heq⟩ := List.mem_map.1 hin
    exact hnew e' he' e List.mem_cons_self heq
  -- the members that are known after `e`
  have hmembers : ∀ m, m ∉ (es ++ [e]).map Evaluation.member →
      m ∉ es.map Evaluation.member ∧ m ∉ e.member :: es.map Evaluation.member := by
    intro m hm
    rw [List.map_append, List.mem_append, not_or] at hm
    exact ⟨hm.1, List.not_mem_cons_of_ne_of_not_mem (fun heq => hm.2 (heq ▸ List.mem_cons_self)) hm.1⟩
  -- the log before `e`, and the step that `e` makes
  obtain ⟨log, hlog⟩ : ∃ log, Limiter.after window limit [] es = log := ⟨_, rfl⟩
  have htracks : Tracks window key (evaluateAll window limit key store es) log
      (es.map Evaluation.member) e.now :=
    hlog ▸ tracks_fresh hfresh hes fun e' he' => hearlier e' he' e List.mem_cons_self
  obtain ⟨hreply, hnext⟩ := slidingWindow_tracks limit htracks (Nat.le_refl e.now) hmember
  obtain ⟨r, hr⟩ := Limiter.exists_reply window hlimit log e.now
  refine ⟨r, hreply.trans hr, ?_, fun t => ?_, fun hfalse => ?_, fun htrue => ?_,
    fun hfalse e' hwait hfresh' => ?_⟩
  · rw [admissions_eq hfresh hes, hlog]
    exact Limiter.allowed_iff hr
  · rw [admissions_eq hfresh hordered]
    exact (Limiter.bounded hordered).count_le t
  · -- both go on from the same log
    rw [Limiter.next_of_denied hr hfalse] at hnext
    have hnow : ∀ f ∈ fs, e.now ≤ f.now := fun f hf => hlater e hefs f hf
    have hnot : ∀ f ∈ fs, f.member ∉ (es ++ [e]).map Evaluation.member := by
      intro f hf hin
      obtain ⟨e', he', heq⟩ := List.mem_map.1 hin
      exact hother e' he' f hf heq
    rw [(run_tracks hnext hnow (fun f hf => (hmembers _ (hnot f hf)).2) hfs).1,
      (run_tracks htracks hnow (fun f hf => (hmembers _ (hnot f hf)).1) hfs).1]
  · have hafter : Limiter.after window limit [] (es ++ [e]) = Limiter.next window limit log e.now := by
      rw [Limiter.after, Runs.run_append, ← hlog]
      rfl
    rw [admissions_eq hfresh hsnoc, hafter]
    exact Limiter.remaining_reply hwindow hr htrue
  · rw [Limiter.next_of_denied hr hfalse] at hnext
    rw [(slidingWindow_tracks limit hnext (by omega) (hmembers _ hfresh').2).1,
      Limiter.admitted_reply_iff]
    exact Limiter.room_after_wait (hlog ▸ Limiter.bounded hes) htracks.last hr hfalse hwait

end Script

namespace SlidingWindow.Sample

/-- Two admissions. -/
def evaluations : List Evaluation := [⟨1000, "a"⟩, ⟨1400, "b"⟩]

/-- With two places in a second the third evaluation is denied, and told to wait for a second. -/
theorem slidingWindow_spec_third :
    ∃ r, (slidingWindow 1000 2 "rl:STRICT:1"
        (evaluateAll 1000 2 "rl:STRICT:1" TtlCache.empty evaluations) ⟨1500, "c"⟩).2 = some r ∧
      (r.allowed = true ↔ Windows.count 1000 1500
        (admissions 1000 2 "rl:STRICT:1" TtlCache.empty evaluations) < 2) ∧
      r = { allowed := false, remaining := 0, retryAfter := 1 } := by
  obtain ⟨r, hr, hallowed, -⟩ := slidingWindow_spec (by decide : 0 < 1000)
    (by decide : 1 ≤ 2) (rfl : (TtlCache.empty : RateLimitStore).entries "rl:STRICT:1" = none)
    evaluations ⟨1500, "c"⟩ [⟨2300, "d"⟩]
    (by decide +kernel)
  refine ⟨r, hr, hallowed, Option.some.inj (hr.symm.trans ?_)⟩
  decide +kernel

end SlidingWindow.Sample

end OpsHub

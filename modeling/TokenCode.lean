import TokenCode.ApplyPatch.Agreement
import TokenCode.ApplyPatch.Print
import TokenCode.ApplyPatch.Grammar
import TokenCode.ApplyPatch.Approval
import TokenCode.ApplyPatch.Preview
import TokenCode.TurnDiff.TrackerRuns
import TokenCode.StreamParser.AssistantText
import TokenCode.Rollout.LiveBaseline
import TokenCode.Permissions.Intersection
import TokenCode.ExecPolicy.Floor
import TokenCode.ExecPolicy.Amendment
import TokenCode.NetworkProxy.Containment
import TokenCode.ExecServer.Recovery
import TokenCode.NoiseRelay.Stream
import TokenCode.RemoteControl.Inbound
import TokenCode.RemoteControl.Outbound
import TokenCode.CodeMode.Outcome
import TokenCode.RolloutStore.Durability
import TokenCode.ApplyPatch.Replacements
import TokenCode.ModelApi.ChatStream
import TokenCode.ModelApi.SameConversation
import TokenCode.Permissions.FullDisk
import TokenCode.UnifiedExec.HeadTailBuffer
import TokenCode.Rollout.RemoveFirst
import TokenCode.UnifiedExec.OutputDeltas
import TokenCode.State.ThreadTimestamps
import TokenCode.FuzzyMatch
import TokenCode.Readiness
import TokenCode.NetworkApproval
import TokenCode.Rollout.Steering
import TokenCode.ThreadHistory.Client

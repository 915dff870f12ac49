import ReclaimTee.Mpc.PoolAgreement
import ReclaimTee.Mpc.TableWrap
import ReclaimTee.Precompute.Agreement
import ReclaimTee.Request.ProofStreams
import ReclaimTee.Tls.SplitSeal
import ReclaimTee.Tls.Authentication
import ReclaimTee.Control.Ownership
import ReclaimTee.Control.Acknowledgement
import ReclaimTee.Mpc.WireFormats
import ReclaimTee.Providers.RequestSecrets
import ReclaimTee.Providers.ResponseRedaction
import ReclaimTee.Providers.ResponseTermination
import ReclaimTee.TokenHive.Hub.Overshoot
import ReclaimTee.TokenHive.Hub.Quota
import ReclaimTee.TokenHive.Hub.Fallback
import ReclaimTee.TokenHive.Hub.Agents
import ReclaimTee.TokenHive.Hub.Binding
import ReclaimTee.TokenHive.Hub.Fidelity
import ReclaimTee.TokenHive.Transport.Exchange
import ReclaimTee.TokenHive.Tee.Account
import ReclaimTee.Mpc.ExtensionCheck
import ReclaimTee.Precompute.PhaseOrder
import ReclaimTee.Response.RedactedStream
import ReclaimTee.Mpc.PoolQueue
import ReclaimTee.Mpc.PoolSet
import ReclaimTee.Tls.KeyExchange
import ReclaimTee.Tls.ServerHello
import ReclaimTee.Control.ClientAuth
import ReclaimTee.TokenHive.Tee.RefreshLoop

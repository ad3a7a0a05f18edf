import NoreplyGateway.Additional.Agreement
import NoreplyGateway.ConfigRoundtrip
import NoreplyGateway.Gateway.Abandoned
import NoreplyGateway.Gateway.Acknowledgement
import NoreplyGateway.Gateway.Cooldowns
import NoreplyGateway.Gateway.GroupCommit
import NoreplyGateway.Gateway.Provenance
import NoreplyGateway.Gateway.Shutdown
import NoreplyGateway.Gateway.Unsent
import NoreplyGateway.Initialize
import NoreplyGateway.Message.Body
import NoreplyGateway.Message.Recipients
import NoreplyGateway.Migration
import NoreplyGateway.Oauth.Generations
import NoreplyGateway.Oauth.Identity
import NoreplyGateway.Oauth.Rotation
import NoreplyGateway.Routing
import NoreplyGateway.Smtp.Buffers
import NoreplyGateway.Smtp.Connections
import NoreplyGateway.Smtp.Transactions
import NoreplyGateway.Store.Accounting
import NoreplyGateway.Store.Order
import NoreplyGateway.Store.Pages
import NoreplyGateway.Store.Retention
import NoreplyGateway.Web.ClientKeys
import NoreplyGateway.Web.Controls
import NoreplyGateway.Web.Flows
import NoreplyGateway.Web.Retries
